import Switchboard.Text.Blank
import Switchboard.Text.Utf8
import Switchboard.Worker.Assignment

/-!
Posting to a worker over HTTP: what is sent, and what an answer means.

A base address without a host cannot be posted to, and a header must not hold controls other than
the tab.  Of the body of a refusal a preview of `previewLimit` bytes is kept.
-/

namespace Switchboard

/-- Where workers listen; an empty base means there is none. -/
structure Endpoint where
  base : String
  secret : Option String
deriving Repr, DecidableEq, Inhabited

/-- A request as a worker receives it; header names are in lower case. -/
structure PostRequest where
  url : String
  headers : List (String × String)
  body : String
deriving Repr, DecidableEq, Inhabited

/-- What comes of sending a request. -/
inductive Reply where
  /-- No connection, or one that broke before an answer. -/
  | broken (reason : String)
  | silent
  | answered (status : Nat) (body : List UInt8)
deriving Repr, DecidableEq, Inhabited

namespace Endpoint

/-- Blanks around the address and slashes at its end do not count; an empty secret is none. -/
def create (base : String) (secret : Option String) : Endpoint :=
  ⟨String.ofList (Text.dropWhileEnd (· = '/') (Text.stripped base.toList)),
    secret.filter (· ≠ "")⟩

/-- The part of an address after its scheme, if the scheme is one of the web's. -/
def afterScheme? (url : List Char) : Option (List Char) :=
  ["http://", "https://"].findSome? fun scheme =>
    if scheme.toList.isPrefixOf url then some (url.drop scheme.length) else none

/-- Whether an address names a host. -/
def hasHost (url : String) : Bool :=
  match afterScheme? url.toList with
  | some rest => rest.head?.any fun c => c != '/' && c != '?' && c != '#'
  | none => false

/-- The path of an address. -/
def path (url : String) : String :=
  String.ofList (((afterScheme? url.toList).getD []).dropWhile (· ≠ '/'))

def isHeaderValue (value : String) : Bool :=
  value.toList.all fun c => c = '\t' || (0x20 ≤ c.toNat && c.toNat ≠ 0x7F)

def contentType : String × String := ("content-type", "application/json")

/-- The request for a path below the base, or why there can be none. -/
def request (endpoint : Endpoint) (target : String) (body : String) (user : UserId)
    (trace : Option TraceId) : Except DispatchError PostRequest :=
  let url := endpoint.base ++ target
  let headers :=
    [contentType, ("x-user-id", user)] ++
      (match trace with
        | some trace => [("x-trace-id", trace)]
        | none => []) ++
      (match endpoint.secret with
        | some secret => [("x-hub-auth", secret)]
        | none => [])
  if endpoint.base = "" then .error .noWorker
  else if !hasHost url then .error (.transport "no host")
  else if !headers.all fun (_, value) => isHeaderValue value then
    .error (.transport "no header value")
  else .ok ⟨url, headers, body⟩

def assignmentRequest (endpoint : Endpoint) (a : Assignment) : Except DispatchError PostRequest :=
  endpoint.request "/internal/executions" (Json.recordText a.fields) a.user (some a.trace)

def decisionRequest (endpoint : Endpoint) (d : Decision) : Except DispatchError PostRequest :=
  endpoint.request "/internal/confirmations" (Json.recordText d.fields) d.user d.trace

end Endpoint

namespace Reply

/-- Bytes kept of the body of a refusal. -/
def previewLimit : Nat := 512

/-- A status from 200 to 299 accepts; every other refuses. -/
def outcome : Reply → Except DispatchError Unit
  | .broken reason => .error (.transport reason)
  | .silent => .error .timeout
  | .answered status body =>
    if 200 ≤ status && status ≤ 299 then .ok ()
    else
      let kept := Text.Utf8.preview previewLimit (Text.Utf8.decodeLossy body)
      .error (.status status (String.ofList kept))

end Reply

/-- Sends a request, if there can be one, over a link that answers with `link`; gives the outcome
and the request as the worker saw it. -/
def post (link : PostRequest → Reply) (request : Except DispatchError PostRequest) :
    Except DispatchError Unit × Option PostRequest :=
  match request with
  | .error e => (.error e, none)
  | .ok r => ((link r).outcome, some r)

end Switchboard
