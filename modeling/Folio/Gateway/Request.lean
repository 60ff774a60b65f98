import Folio.Text.Percent

/-!
# Requests and responses

A request names a method and a target, and may bring a body with a media type.
The target is a path, possibly with a scheme and a host in front of it and a query
behind a question mark; a number sign and what follows it are left out.

Every text is taken as a target here.  A client can send less: no target has blanks,
control characters, angle brackets or backticks in it, so that what is said of a request
with such a target is said of no request that is ever made.  A body holds any bytes.
-/

namespace Folio

open Text

/-- What a request asks for.  Names of methods are told apart by case. -/
inductive Method where
  | get
  | head
  | post
  | put
  | delete
  | options
  | other (name : String)
deriving DecidableEq, Repr

/-- The method of a name. -/
def Method.ofName (name : String) : Method :=
  if name = "GET" then .get
  else if name = "HEAD" then .head
  else if name = "POST" then .post
  else if name = "PUT" then .put
  else if name = "DELETE" then .delete
  else if name = "OPTIONS" then .options
  else .other name

/-- The body of a request. -/
structure Body where
  bytes : ByteArray

namespace Body

instance : Coe String Body := ⟨fun text => ⟨text.toUTF8⟩⟩

/-- The longest text in the first bytes of a body, up to a number of bytes. -/
def textWithin (body : Body) : (size : Nat) → String
  | 0 => ""
  | size + 1 =>
      match String.fromUTF8? (body.bytes.extract 0 (size + 1)) with
      | some text => text
      | none => textWithin body size

/-- The text of a body, up to the first byte that belongs to no character.  For a reader
of the body that byte is not different from its end. -/
def text (body : Body) : String := body.textWithin body.bytes.size

example : Body.text ⟨⟨#[0x61, 0xC3, 0xA9, 0xC3]⟩⟩ = "aé" ∧ Body.text ⟨⟨#[0xA9]⟩⟩ = "" := by
  decide +kernel

end Body

/-- A request. -/
structure Request where
  method : Method
  target : String
  contentType : Option String := none
  body : Body := ""

namespace Request

/-- Whether a character ends the host in front of a path. -/
def endsHost (c : Char) : Bool := c == '/' || c == '?' || c == '#'

/-- Leave out a scheme and a host; a target that starts with a slash has none. -/
def withoutHost (target : List Char) : List Char :=
  match target.head?, target.dropWhile (· != ':') with
  | some '/', _ => target
  | _, ':' :: '/' :: '/' :: rest => rest.dropWhile (!endsHost ·)
  | _, _ => target

/-- The target without its host, a number sign and what follows it. -/
def located (request : Request) : List Char :=
  (withoutHost request.target.toList).takeWhile (· != '#')

/-- The path of the target. -/
def path (request : Request) : List Char :=
  request.located.takeWhile (· != '?')

/-- The query of the target; it is empty when there is none. -/
def query (request : Request) : List Char :=
  (request.located.dropWhile (· != '?')).drop 1

/-- The fields of the query. -/
def parameters (request : Request) : List (String × String) :=
  formFields request.query

example : (Request.mk .get "http://host:80/a?b#c" none "").path = "/a".toList ∧
    (Request.mk .get "/a:b//c" none "").path = "/a:b//c".toList := by
  decide +kernel

end Request

/-- A response.  What the server says about a request that it turns away is not
more than the status. -/
structure Response where
  status : Nat
  contentType : Option String := none
  content : String := ""
deriving DecidableEq, Repr

namespace Response

/-- The media type of JSON. -/
def jsonType : String := "application/json"

/-- The media type of plain text. -/
def plainType : String := "text/plain; charset=utf-8"

/-- Whether the content of a response is JSON. -/
def isJson (response : Response) : Bool := response.contentType = some jsonType

/-- The response without its content. -/
def withoutContent (response : Response) : Response := { response with content := "" }

end Response

end Folio
