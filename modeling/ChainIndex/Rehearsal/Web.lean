/-
Pages of a web for rehearsals. They stand under one address, `Web.home`; no
other address can be reached. An answer is described by its status, its body and
the length that is claimed for the body: what is behind that length is cut off,
and a body that is shorter breaks off.
-/
import ChainIndex.Denom.Download
import ChainIndex.Json.Member

namespace ChainIndex

/-- What is received of a body: nothing if it breaks off. A mark of the byte
order at its start is no part of the text. -/
def Http.received (body : Bytes) (claimed : Nat) : Option String :=
  if body.length < claimed then none
  else
    let text := (Bytes.toText? (body.take claimed)).getD "\ufffd"
    some (if text.startsWith "\ufeff" then (text.drop 1).toString else text)

namespace Http.Answer

/-- Statuses whose answers have no body, whatever is sent. -/
def isBodiless (status : Nat) : Bool :=
  status == 101 || status == 204 || status == 304

/-- What arrives of a described answer. A status that is no answer of its own
leaves the connection without one. -/
def ofRecord (j : Json) : Except NodeError Http.Answer :=
  let status := j.natD "http_status" 200
  let body := Bytes.ofText (j.textAt "body")
  if j.flagAt "silent" then .error (.timeout "no answer")
  else if isBodiless status then .ok ⟨status, some ""⟩
  else if 200 ≤ status ∧ status ≤ 999 then
    .ok ⟨status, Http.received body (j.natD "content_length" body.length)⟩
  else .error (.network "no answer")

end Http.Answer

/-- The answers of the pages, by path and query. -/
structure Web where
  answer : String → Except NodeError Http.Answer

namespace Web

def home : String := "NODE"

/-- An address as it is given: under the home address if it is a path or empty. -/
def addressOf (given : Option String) : String :=
  match given with
  | none => home
  | some s => if s.startsWith "/" then home ++ s else s

/-- The path and query of an address that can be reached. -/
def target? (url : String) : Option String :=
  if url.startsWith (home ++ "/") then some (url.drop home.length).toString else none

def reach (w : Web) (url : String) : Except NodeError Http.Answer :=
  match target? url with
  | some target => w.answer target
  | none => .error (.network "unreachable")

/-- Reaches a page; the paths and queries that were seen are kept, the last
one first. -/
def get (w : Web) (url : String) : Call (List String) NodeError Http.Answer := do
  modify ((target? url).toList ++ ·)
  Call.ofExcept (w.reach url)

/-- The page of the answer with a number. -/
def page (index : Nat) : String := "/" ++ toString index

/-- The same answer everywhere. -/
def same (answer : Json) : Web := ⟨fun _ => Http.Answer.ofRecord answer⟩

def notFound : Except NodeError Http.Answer := .ok ⟨404, some ""⟩

/-- The answers on numbered pages. -/
def numbered (answers : List Json) : Web :=
  { answer := fun target =>
      match answers.zipIdx.find? fun (_, i) => page i == target with
      | some (j, _) => Http.Answer.ofRecord j
      | none => notFound }

/-- A downloader of these pages that tries once. -/
def downloader (w : Web) : Downloader σ :=
  { get := fun url => Call.ofExcept (w.reach url)
    retry := .ofSeconds 1 30
    pause := fun _ => pure ()
    patience := 1 }

end Web

end ChainIndex
