/-
Python's `urllib.request`, as an opener without proxies uses it.

`openUrl` is `build_opener(ProxyHandler({})).open`: it sends a request, gives back an answer
with a status from 200 to 299, raises `HTTPError` for the others, and follows a redirection
by sending a request of its own, which keeps every header but those of the content.  The
visits to each address are counted, so that the opener comes to an end.

What the parsing of URLs makes of a `Location` is a parameter, and so is the peer: it may
answer anything to any request, and sending, reading and closing may fail.
-/
import DataEngLab.Lib.Decimal
import DataEngLab.Lib.Prog
import Mathlib.Algebra.BigOperators.Group.List.Basic

namespace Lib

/-! ### Requests and answers -/

inductive HttpMethod where
  | get
  | post
deriving DecidableEq

structure UrlRequest where
  method : HttpMethod
  url : Str
  headers : List (Str × Str)
  body : Option Bytes
deriving DecidableEq

/-- What the opener and the answer raise. -/
inductive HttpExn where
  /-- `KeyboardInterrupt` or `SystemExit` -/
  | interrupt
  /-- `HTTPError`, whose answer can still be read -/
  | status (code : Nat)
  /-- any other `URLError` -/
  | url
  | other
deriving DecidableEq

/-- How sending a request ends. -/
inductive SendReply where
  /-- it failed before anything was sent -/
  | unsent (e : HttpExn)
  /-- it failed after that -/
  | failed (e : HttpExn)
  | response (status : Nat) (headers : List (Str × Str))
deriving DecidableEq

def SendReply.isSent : SendReply → Bool
  | .unsent _ => false
  | _ => true

inductive HttpCall where
  | send (request : UrlRequest)
  /-- read from the last response; all of it without a limit -/
  | read (limit : Option Nat)
  | close

def HttpAnswer : HttpCall → Type
  | .send _ => SendReply
  | .read _ => Except HttpExn Bytes
  | .close => Except HttpExn Unit

abbrev Http (ε α : Type) := Proc HttpCall HttpAnswer ε α

def sendRequest {ε : Type} (request : UrlRequest) : Http ε SendReply := Proc.perform (HttpCall.send request)

/-- `response.read(limit)`, with what it raises. -/
def readResponse {ε : Type} (limit : Option Nat) : Http ε (Except HttpExn Bytes) := Proc.perform (HttpCall.read limit)

def closeResponse {ε : Type} : Http ε (Except HttpExn Unit) := Proc.perform HttpCall.close

/-- Does the call send anything? -/
def HttpCall.isSend : HttpCall → Bool
  | .send _ => true
  | _ => false

/-! ### Redirections -/

/-- `urllib.parse`, as the redirect handler uses it. -/
structure UrlParsing where
  /-- `urlparse(location).scheme` -/
  scheme : Str → Except HttpExn Str
  /-- the location, completed and quoted, joined to the address of the request -/
  join : Str → Str → Except HttpExn Str

/-- The visits to each address that redirections have led to. -/
abbrev Visited := List (Str × Nat)

def Visited.count (v : Visited) (url : Str) : Nat := (v.lookup url).getD 0

/-- One more visit. -/
def Visited.visit (url : Str) : Visited → Visited
  | [] => [(url, 1)]
  | e :: v => if e.1 = url then (url, e.2 + 1) :: v else e :: visit url v

def maxRepeats : Nat := 4

def maxRedirections : Nat := 10

/-- The next redirection would be refused. -/
def Visited.isLoop (v : Visited) (url : Str) : Bool :=
  v.count url ≥ maxRepeats || v.length ≥ maxRedirections

/-- What is left of the visits that are allowed. -/
def Visited.room (v : Visited) : Nat :=
  (v.map fun e => maxRepeats - e.2).sum + maxRepeats * (maxRedirections - v.length)

theorem Visited.visit_room_of_mem {url : Str} : ∀ {v : Visited}, v.lookup url ≠ none → v.count url < maxRepeats →
    (v.visit url).length = v.length ∧
      ((v.visit url).map fun e => maxRepeats - e.2).sum < (v.map fun e => maxRepeats - e.2).sum
  | [], h, _ => absurd rfl h
  | e :: v, h, hc => by
      obtain ⟨address, n⟩ := e
      by_cases he : address = url
      · subst he
        have hn : n < maxRepeats := by simpa [Visited.count, List.lookup_cons] using hc
        simp only [Visited.visit, if_true, List.map_cons, List.sum_cons, List.length_cons, true_and]
        omega
      · have hb : (url == address) = false := by simpa using fun hurl => he hurl.symm
        have hlook : v.lookup url = ((address, n) :: v).lookup url := by simp [List.lookup_cons, hb]
        obtain ⟨hlen, hsum⟩ := visit_room_of_mem (v := v) (by rwa [hlook])
          (by rwa [Visited.count, hlook, ← Visited.count])
        simp only [Visited.visit, if_neg he, List.map_cons, List.sum_cons, List.length_cons, hlen, true_and]
        omega

theorem Visited.visit_of_notMem {url : Str} : ∀ {v : Visited}, v.lookup url = none → v.visit url = v ++ [(url, 1)]
  | [], _ => rfl
  | e :: v, h => by
      obtain ⟨address, n⟩ := e
      by_cases he : address = url
      · subst he
        simp [List.lookup_cons] at h
      · have hb : (url == address) = false := by simpa using fun hurl => he hurl.symm
        have hv : v.lookup url = none := by simpa [List.lookup_cons, hb] using h
        simp [Visited.visit, if_neg he, visit_of_notMem hv]

/-- Every redirection that is not refused leaves less room. -/
theorem Visited.visit_room {v : Visited} {url : Str} (h : v.isLoop url = false) :
    (v.visit url).room < v.room := by
  simp only [Visited.isLoop, Bool.or_eq_false_iff, decide_eq_false_iff_not, not_le] at h
  obtain ⟨hc, hlen⟩ := h
  by_cases hm : v.lookup url = none
  · simp only [Visited.room, Visited.visit_of_notMem hm, List.map_append, List.sum_append, List.map_cons, List.map_nil,
      List.sum_cons, List.sum_nil, List.length_append, List.length_singleton]
    simp only [maxRepeats, maxRedirections] at hlen ⊢
    omega
  · obtain ⟨hl, hsum⟩ := Visited.visit_room_of_mem hm hc
    simp only [Visited.room, hl]
    omega

/-- The first header of a name. -/
def headerOf (name : String) (headers : List (Str × Str)) : Option Str :=
  (headers.find? fun h => lowerAscii h.1 == lit name).map Prod.snd

/-- The statuses that the handler looks at. -/
def redirectStatuses : List Nat := [301, 302, 303, 307, 308]

/-- `redirect_request` makes a new request for this method and status. -/
def isFollowed (method : HttpMethod) (status : Nat) : Bool :=
  match method with
  | .get => status ∈ redirectStatuses
  | .post => status ∈ [301, 302, 303]

/-- The headers of the new request. -/
def keptHeaders (headers : List (Str × Str)) : List (Str × Str) :=
  headers.filter fun h => !(["content-length", "content-type"].any fun name => lowerAscii h.1 == lit name)

section
variable (urls : UrlParsing)

/-- `http_error_302`, up to the reading of the answer: the request that follows. -/
def redirection (request : UrlRequest) (status : Nat) (headers : List (Str × Str)) : Except HttpExn UrlRequest :=
  if status ∉ redirectStatuses then .error (.status status)
  else
    match (headerOf "location" headers).or (headerOf "uri" headers) with
    | none => .error (.status status)
    | some location => do
        let scheme ← urls.scheme location
        if ["http", "https", "ftp", ""].all (fun s => scheme ≠ lit s) then .error (.status status)
        else do
          let url ← urls.join request.url location
          if isFollowed request.method status then .ok ⟨.get, url, keptHeaders request.headers, none⟩
          else .error (.status status)

/-- The visits with the next one, unless the redirections loop. -/
def visiting (visited : Option Visited) (url : Str) : Option Visited :=
  match visited with
  | none => some [(url, 1)]
  | some v => if v.isLoop url then none else some (v.visit url)

/-- The room that is left, before and after the first redirection. -/
def roomOf : Option Visited → Nat
  | none => maxRepeats * maxRedirections
  | some v => v.room

theorem roomOf_visiting {visited : Option Visited} {url : Str} {v : Visited}
    (h : visiting visited url = some v) : roomOf (some v) < roomOf visited := by
  cases visited with
  | none =>
      cases h
      show maxRepeats - 1 + 0 + maxRepeats * (maxRedirections - 1) < maxRepeats * maxRedirections
      decide
  | some w =>
      rw [visiting] at h
      split at h
      · cases h
      · cases h
        rename_i hloop
        exact Visited.visit_room (by simpa using hloop)

/-- `opener.open`; the answer is the last response. -/
def openUrl (visited : Option Visited) (request : UrlRequest) : Http HttpExn Unit := do
  match ← sendRequest request with
  | .unsent e => throw e
  | .failed e => throw e
  | .response status headers =>
      if 200 ≤ status ∧ status < 300 then pure ()
      else
        match redirection urls request status headers with
        | .error e => throw e
        | .ok next =>
            match _h : visiting visited next.url with
            | none => throw (.status status)
            | some visited' => do
                let _ ← Proc.lift (← readResponse none)
                Proc.lift (← closeResponse)
                openUrl (some visited') next
termination_by roomOf visited
decreasing_by exact roomOf_visiting _h

/-! ### Peers -/

/-- How one request fares: how it is sent, and how its response is read and closed. -/
structure Exchange where
  reply : SendReply
  body : Except HttpExn Bytes
  closing : Except HttpExn Unit

/-- A peer, and what has been sent to it; a failed request has no response. -/
structure Wire where
  answers : Nat → Exchange
  count : Nat
  sent : List UrlRequest

/-- The exchange of the last request. -/
def Wire.last (w : Wire) : Exchange := w.answers (w.count - 1)

def Wire.answer (w : Wire) : (e : HttpCall) → HttpAnswer e × Wire
  | .send request =>
      let reply := (w.answers w.count).reply
      (reply, ⟨w.answers, w.count + 1, if reply.isSent then w.sent ++ [request] else w.sent⟩)
  | .read limit =>
      (w.last.body.map fun body => (limit.map body.take).getD body, w)
  | .close => (w.last.closing, w)

/-- The requests that a program sends to a peer. -/
def sentBy {ε α : Type} (answers : Nat → Exchange) (p : Http ε α) : List UrlRequest :=
  (Proc.run Wire.answer p ⟨answers, 0, []⟩).2.sent

/-- The request that follows when this exchange is a redirection that the opener follows. -/
def Exchange.following (x : Exchange) (request : UrlRequest) : Option UrlRequest :=
  match x.reply with
  | .response status headers =>
      if 200 ≤ status ∧ status < 300 then none
      else
        match redirection urls request status headers with
        | .error _ => none
        | .ok next => if x.body.isOk && x.closing.isOk then some next else none
  | _ => none

/-- The opener sends a second request, to the place that the first answer names. -/
def sendsOn (answers : Nat → Exchange) (request : UrlRequest) : Bool :=
  ((answers 0).following urls request).isSome && (answers 1).reply.isSent

section
variable {ε α : Type} {w : Wire}

/-- What has been sent stays. -/
theorem run_sent_prefix (p : Prog HttpCall HttpAnswer α) : ∀ w : Wire, w.sent <+: (p.run Wire.answer w).2.sent := by
  induction p with
  | pure a => exact fun w => List.prefix_refl _
  | call e k ih =>
      intro w
      refine List.IsPrefix.trans ?_ (ih _ _)
      cases e with
      | send request =>
          simp only [Wire.answer]
          split
          · exact List.prefix_append _ _
          · exact List.prefix_refl _
      | read limit => exact List.prefix_refl _
      | close => exact List.prefix_refl _

/-- A program that only reads and closes sends nothing. -/
theorem run_sent_of_only {p : Prog HttpCall HttpAnswer α} (h : Only (fun e => e.isSend = false) p) :
    ∀ w : Wire, (p.run Wire.answer w).2.sent = w.sent := by
  induction p with
  | pure a => exact fun _ => rfl
  | call e k ih =>
      intro w
      refine (ih _ (h.2 _) _).trans ?_
      cases e with
      | send request => cases h.1
      | read limit => rfl
      | close => rfl

theorem run_sendRequest_bind {request : UrlRequest} {f : SendReply → Http ε α} :
    Proc.run Wire.answer (sendRequest request >>= f) w =
      Proc.run Wire.answer (f (w.answers w.count).reply) (w.answer (.send request)).2 := rfl

theorem run_readResponse {limit : Option Nat} :
    Proc.run Wire.answer (readResponse limit : Http ε (Except HttpExn Bytes)) w =
      (.ok (w.last.body.map fun body => (limit.map body.take).getD body), w) := rfl

theorem run_closeResponse :
    Proc.run Wire.answer (closeResponse : Http ε (Except HttpExn Unit)) w = (.ok w.last.closing, w) := rfl

/-- The response of a redirection is read and closed. -/
theorem run_discard {rest : Http HttpExn Unit} :
    Proc.run Wire.answer (do
      let _ ← Proc.lift (← readResponse none)
      Proc.lift (← closeResponse)
      rest) w =
      match w.last.body, w.last.closing with
      | .error e, _ => (.error e, w)
      | .ok _, .error e => (.error e, w)
      | .ok _, .ok _ => Proc.run Wire.answer rest w := by
  simp only [run_bind, run_readResponse, run_closeResponse, run_lift]
  cases w.last.body <;> cases w.last.closing <;> rfl

variable (w) in
theorem openUrl_sent (visited : Option Visited) (request : UrlRequest) :
    (if (w.answers w.count).reply.isSent then w.sent ++ [request] else w.sent) <+:
      (Proc.run Wire.answer (openUrl urls visited request) w).2.sent := by
  rw [openUrl, run_sendRequest_bind]
  exact run_sent_prefix _ (w.answer (.send request)).2

theorem openUrl_unsent {visited : Option Visited} {request : UrlRequest}
    (h : (w.answers w.count).reply.isSent = false) :
    (Proc.run Wire.answer (openUrl urls visited request) w).2.sent = w.sent := by
  rw [openUrl, run_sendRequest_bind]
  cases hr : (w.answers w.count).reply with
  | unsent e => simp [Wire.answer, hr, SendReply.isSent]
  | failed e => simp [hr, SendReply.isSent] at h
  | response status headers => simp [hr, SendReply.isSent] at h

section
variable {answers : Nat → Exchange} {request : UrlRequest}

variable (request) in
/-- After the first response: the next request, if the exchange is a redirection that is followed. -/
theorem openUrl_response {status : Nat} {headers : List (Str × Str)}
    (hr : (answers 0).reply = .response status headers) :
    ∃ e : Except HttpExn Unit, Proc.run Wire.answer (openUrl urls none request) ⟨answers, 0, []⟩ =
      match (answers 0).following urls request with
      | none => (e, ⟨answers, 1, [request]⟩)
      | some next => Proc.run Wire.answer (openUrl urls (some [(next.url, 1)]) next) ⟨answers, 1, [request]⟩ := by
  rw [openUrl, run_sendRequest_bind]
  simp only [hr, Exchange.following, Wire.answer, SendReply.isSent, if_true, List.nil_append, Nat.zero_add]
  by_cases h2 : 200 ≤ status ∧ status < 300
  · simp only [if_pos h2]
    exact ⟨_, rfl⟩
  · simp only [if_neg h2]
    cases hn : redirection urls request status headers with
    | error e => exact ⟨_, rfl⟩
    | ok next =>
        refine (exists_congr fun e => Eq.congr_left (run_discard (w := ⟨answers, 1, [request]⟩))).mpr ?_
        simp only [Wire.last, Nat.sub_self]
        rcases (answers 0).body with e | body <;> rcases (answers 0).closing with e' | u
        case ok.ok => exact ⟨.ok (), rfl⟩
        all_goals exact ⟨_, rfl⟩

/-- **One request is sent, unless the first answer is a redirection that is followed.** -/
theorem openUrl_sends (h : sendsOn urls answers request = false) :
    sentBy answers (openUrl urls none request) = if (answers 0).reply.isSent then [request] else [] := by
  rw [sentBy]
  cases hr : (answers 0).reply with
  | unsent e => exact openUrl_unsent urls (by simp [hr, SendReply.isSent])
  | failed e =>
      rw [openUrl, run_sendRequest_bind]
      simp [Wire.answer, hr, SendReply.isSent]
  | response status headers =>
      obtain ⟨e, he⟩ := openUrl_response urls request hr
      rw [he]
      cases hf : (answers 0).following urls request with
      | none => rfl
      | some next =>
          rw [sendsOn, hf, Option.isSome_some, Bool.true_and] at h
          exact openUrl_unsent urls h

/-- Then two are. -/
theorem openUrl_sends_on {next : UrlRequest} (hf : (answers 0).following urls request = some next)
    (hsent : (answers 1).reply.isSent = true) :
    ∃ rest, sentBy answers (openUrl urls none request) = request :: next :: rest := by
  cases hr : (answers 0).reply with
  | unsent e => simp [Exchange.following, hr] at hf
  | failed e => simp [Exchange.following, hr] at hf
  | response status headers =>
      obtain ⟨e, he⟩ := openUrl_response urls request hr
      rw [hf] at he
      obtain ⟨rest, hrest⟩ := openUrl_sent urls ⟨answers, 1, [request]⟩ (some [(next.url, 1)]) next
      rw [if_pos hsent] at hrest
      exact ⟨rest, by rw [sentBy, he, ← hrest]; rfl⟩

end
end
end

end Lib
