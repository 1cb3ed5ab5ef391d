/-
Where the clients' tokens go.

A client makes at most one request, and after the opener it only reads and closes; so what is
sent in a call is what the opener sends.  That is the one request to the origin, unless the
first answer is a redirection: the opener follows it, and the new request keeps the token.
-/
import DataEngLab.Checkpoints.Clients

namespace Checkpoints

open Lib

/-! ### Calls -/

/-- A call of one of the three clients. -/
inductive ClientCall where
  | cli (path : Str) (payload : Option Json) (token : Str)
  | task (env : Environ)
  | lease (action : Str) (payload : Json) (env : Environ)

namespace ClientCall

/-- The one path of a call. -/
def path : ClientCall → Str
  | .cli path _ _ => path
  | .task _ => lit "/v1/plans"
  | .lease action _ _ => (leaseRoutes.lookup action).getD []

section
variable (urls : UrlParsing) (repr : Str → Str)

/-- The request of a call that is not refused before. -/
def request : ClientCall → Option UrlRequest
  | .cli path payload token => (cliRequest repr path payload token).toOption
  | .task env => (taskRequest env).toOption
  | .lease action payload env => (leaseRequest repr action payload env).toOption

/-- What is sent in a call. -/
def sent (answers : Nat → Exchange) : ClientCall → List UrlRequest
  | .cli path payload token => sentBy answers (cliCall urls repr path payload token)
  | .task env => sentBy answers (taskCall urls env)
  | .lease action payload env => sentBy answers (leaseCall urls repr action payload env)

end

end ClientCall

/-- The request carries the token. -/
def authorized (request : UrlRequest) : Bool := (headerOf "authorization" request.headers).isSome

/-- The token goes to the path of the call at the origin only, in one request at most. -/
structure TokenStays (path : Str) (sent : List UrlRequest) : Prop where
  atOrigin : ∀ request ∈ sent, authorized request = true → request.url = origin ++ path
  once : sent.length ≤ 1

/-! ### What follows the opener -/

section
variable {ε α : Type}

theorem only_readResponse {limit : Option Nat} :
    Only (fun e => e.isSend = false) (readResponse limit : Http ε (Except HttpExn Bytes)) := Only.perform rfl

theorem only_closeResponse : Only (fun e => e.isSend = false) (closeResponse : Http ε (Except HttpExn Unit)) :=
  Only.perform rfl

/-- Nothing of a matched call sends, when no branch does. -/
theorem only_closing {outcome : Except ε α} {interrupt failed : ε} :
    Only (fun e => e.isSend = false) (closing outcome interrupt failed) := by
  refine Only.bind only_closeResponse fun closed => ?_
  rcases outcome with e | a
  · exact Only.throw
  · rcases closed with (_ | _ | _ | _) | _ <;> trivial

/-- A call sends what the opener sends. -/
theorem sentBy_opening {urls : UrlParsing} {answers : Nat → Exchange} {prepared : Except ε UrlRequest}
    {rest : Except HttpExn Unit → Http ε α} (h : ∀ r, Only (fun e => e.isSend = false) (rest r)) :
    sentBy answers (opening urls prepared rest) =
      match prepared.toOption with
      | none => []
      | some request => sentBy answers (openUrl urls none request) := by
  cases prepared with
  | error e => rfl
  | ok request =>
      rw [sentBy, opening, run_bind, run_lift]
      simp only [run_bind, run_attempt]
      exact run_sent_of_only (h _) _

end

theorem only_cliOpened {repr : Str → Str} {path : Str} (opened : Except HttpExn Unit) :
    Only (fun e => e.isSend = false) (cliOpened repr path opened) := by
  rcases opened with (_ | status | _ | _) | u
  case error.status => exact Only.bind only_readResponse fun _ => only_closing
  case ok =>
    refine Only.bind (Only.attempt (Only.bind only_readResponse fun read => ?_)) fun _ => only_closing
    rcases read with (_ | _ | _ | _) | raw
    case ok => exact Only.bind Only.lift fun _ => Only.bind Only.lift fun _ => Only.lift
    all_goals exact Only.throw
  all_goals exact Only.throw

theorem only_taskOpened (opened : Except HttpExn Unit) :
    Only (fun e => e.isSend = false) (taskOpened opened) := by
  rcases opened with (_ | status | _ | _) | u
  case ok =>
    refine Only.bind (Only.attempt (Only.mapError (Only.bind only_readResponse fun read => ?_))) fun _ => only_closing
    rcases read with (_ | _ | _ | _) | raw
    case ok => exact Only.bind Only.lift fun _ => Only.bind Only.lift fun _ => Only.pure
    all_goals exact Only.throw
  all_goals exact Only.throw

theorem only_leaseOpened (opened : Except HttpExn Unit) :
    Only (fun e => e.isSend = false) (leaseOpened opened) := by
  rcases opened with e | u
  · exact Only.throw
  · refine Only.bind (Only.attempt (Only.bind only_readResponse fun read => ?_)) fun outcome =>
      Only.bind only_closeResponse fun closed => ?_
    · rcases read with e | raw
      · exact Only.throw
      · exact Only.lift
    · rcases outcome with (_ | _ | _) | a <;> rcases closed with (_ | _ | _ | _) | u <;> trivial

/-! ### The token -/

section
variable {urls : UrlParsing} {repr : Str → Str} {answers : Nat → Exchange}

theorem ClientCall.sent_eq (call : ClientCall) :
    call.sent urls repr answers =
      match call.request repr with
      | none => []
      | some request => sentBy answers (openUrl urls none request) := by
  cases call with
  | cli path payload token => exact sentBy_opening only_cliOpened
  | task env => exact sentBy_opening only_taskOpened
  | lease action payload env => exact sentBy_opening only_leaseOpened

/-- The request of a call goes to its path. -/
theorem ClientCall.request_url {call : ClientCall} {request : UrlRequest} (h : call.request repr = some request) :
    request.url = origin ++ call.path := by
  cases call with
  | cli path payload token =>
      cases payload with
      | none =>
          cases h
          rfl
      | some payload =>
          rw [ClientCall.request, cliRequest] at h
          cases hb : cliCanonical repr payload (requestBound path) with
          | error e => simp [hb, bind, Except.bind, Except.toOption] at h
          | ok body =>
              rw [hb] at h
              cases h
              rfl
  | task env =>
      rw [ClientCall.request, taskRequest] at h
      cases ht : env.configured (TaskExn.failure "configuration_invalid") TaskExn.other with
      | error e => simp [ht, bind, Except.bind, Except.toOption] at h
      | ok token =>
          rw [ht] at h
          cases h
          rfl
  | lease action payload env =>
      rw [ClientCall.request, leaseRequest] at h
      cases hp : leaseRoutes.lookup action with
      | none => simp [hp, orElse, bind, Except.bind, Except.toOption] at h
      | some path =>
          rw [hp] at h
          cases ht : env.configured (LeaseExn.failure "lease_configuration_invalid") LeaseExn.other with
          | error e => simp [ht, orElse, bind, Except.bind, Except.toOption] at h
          | ok token =>
              rw [ht] at h
              cases hb : dumps (Json.mapFloats repr payload) with
              | none => simp [hb, orElse, bind, Except.bind, Except.toOption] at h
              | some text =>
                  have hlength : (asciiBytes text).length = text.length := List.length_map _
                  by_cases hl : text.length ≤ maxClientBody
                  · simp [hb, orElse, bind, Except.bind, Except.toOption, require, hlength, hl, pure, Except.pure] at h
                    rw [← h, ClientCall.path, hp]
                    rfl
                  · simp [hb, orElse, bind, Except.bind, Except.toOption, require, hlength, hl] at h

/-- **The token stays exactly when the first answer does not send the opener on.** -/
theorem tokenStays_iff (urls : UrlParsing) (repr : Str → Str) (answers : Nat → Exchange) (call : ClientCall) :
    TokenStays call.path (call.sent urls repr answers) ↔
      ∀ request, call.request repr = some request → sendsOn urls answers request = false := by
  rw [call.sent_eq]
  cases hr : call.request repr with
  | none => exact iff_of_true ⟨by simp, by simp⟩ (by simp)
  | some request =>
      simp only [Option.some.injEq, forall_eq']
      cases hs : sendsOn urls answers request with
      | false =>
          refine iff_of_true ?_ rfl
          rw [openUrl_sends urls hs]
          constructor
          · intro r hm _
            split at hm
            · obtain rfl := List.mem_singleton.mp hm
              exact ClientCall.request_url hr
            · cases hm
          · split <;> simp
      | true =>
          obtain ⟨hf, hone⟩ := Bool.and_eq_true_iff.mp hs
          obtain ⟨next, hf⟩ := Option.isSome_iff_exists.mp hf
          obtain ⟨rest, hsent⟩ := openUrl_sends_on urls hf hone
          refine iff_of_false (fun hstays => ?_) (by simp)
          have honce := hstays.once
          simp [hsent] at honce

end

/-! ### A redirection -/

/-- A `Location` that names its scheme and its host is its own address. -/
def absoluteUrls : UrlParsing where
  scheme location := .ok (Lib.lowerAscii (location.takeWhile (· ≠ 58)))
  join _ location := .ok location

/-- The service sends the client elsewhere, and is answered there. -/
def elsewhere : Nat → Exchange
  | 0 => ⟨.response 302 [(lit "Location", lit "http://elsewhere.invalid/v1/plans")], .ok [], .ok ()⟩
  | _ => ⟨.response 200 [], .ok [], .ok ()⟩

def taskWithToken : ClientCall := .task ⟨none, some (lit "operator-token")⟩

theorem redirected_not_tokenStays :
    ¬ TokenStays taskWithToken.path (taskWithToken.sent absoluteUrls id elsewhere) := by
  have hrequest : taskWithToken.request id = some (postRequest (lit "/v1/plans") (lit "operator-token") plansBody) := by
    rfl
  have hfollowing : (elsewhere 0).following absoluteUrls
      (postRequest (lit "/v1/plans") (lit "operator-token") plansBody) =
      some ⟨.get, lit "http://elsewhere.invalid/v1/plans", [authorization (lit "operator-token")], none⟩ := by
    decide
  obtain ⟨rest, hsent⟩ := openUrl_sends_on absoluteUrls hfollowing rfl
  intro hstays
  rw [taskWithToken.sent_eq, hrequest] at hstays
  simp only [hsent] at hstays
  have hurl := hstays.atOrigin _ (List.mem_cons_of_mem _ (List.mem_cons_self ..)) (by decide)
  exact absurd hurl (by decide)

end Checkpoints
