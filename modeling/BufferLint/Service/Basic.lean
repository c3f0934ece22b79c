import BufferLint.FileType
import BufferLint.Json.Basic

/-! The services that check a language remotely, and what they are sent. -/
namespace BufferLint

inductive Service where
  | eslint
  | typescript
  | pyright
  deriving DecidableEq, Repr

namespace Service

def all : List Service := [.eslint, .typescript, .pyright]

def type : Service → FileType
  | .eslint => .javascript
  | .typescript => .typescript
  | .pyright => .python

def ofType? (t : FileType) : Option Service := all.find? (fun s => s.type == t)

def source : Service → String
  | .eslint => "ESLint"
  | .typescript => "TypeScript"
  | .pyright => "Pyright"

def options : Service → Json
  | .eslint => .object [("ecmaVersion", .string "latest"), ("sourceType", .string "module")]
  | .typescript => .object [("noImplicitAny", .bool true), ("strict", .bool true)]
  | .pyright => .object [("pythonVersion", .string "3.8"), ("typeChecking", .bool true)]

def requestBody (s : Service) (code : String) : Json :=
  .object [("code", .string code), ("options", s.options)]

end Service

structure Endpoint where
  service : Service
  base : String
  deriving DecidableEq, Repr

namespace Endpoint

def withoutSlashes (url : String) : String :=
  String.ofList (url.toList.reverse.dropWhile (· == '/')).reverse

def checkUrl (e : Endpoint) : String := withoutSlashes e.base ++ "/check"

def statusUrl (e : Endpoint) : String := withoutSlashes e.base ++ "/status"

end Endpoint
end BufferLint
