/-
Elise/Panel/Users.lean

`get_users` of the Xboard client with its cache of user lists
(src/panel/xboard.rs), over every interleaving of calls for any nodes.

A call takes the lock of its node, sends the ETag of the node's pair, and holds
the lock until the reply has been dealt with; the pair is replaced as a whole
or not at all.  `LastValid` is a ghost that follows the replies alone: per
node, the last one with a success status and a list that can be read.  The
invariant `InStep` says that the pairs follow it, and that a request on the
way carries the ETag of its node's pair, which no other call can have changed.

A success status is any of 2xx (`is_success`), not 200 alone: `created_is_read`.
-/
import Elise.Lib.Run
import Elise.Panel.Client

namespace Elise

def StatusCode.isNotModified (status : StatusCode) : Bool := status.code = 304

/-! ### Reading a reply -/

inductive UsersReply where
  /-- The request or the transfer failed. -/
  | transport
  /-- `body` is `none` where it is no JSON. -/
  | response (status : StatusCode) (etag : Option (List Char)) (body : Option Json)

inductive UsersError where
  | transport
  /-- "Xboard returned 304 without a cached ETag" -/
  | notModified
  /-- "Xboard API user sync returned status {status}" -/
  | status (status : StatusCode)
  | decode
  /-- "Xboard user response has no users array" -/
  | noUsersArray
  | speedLimit (message : String)

/-- The ETag and the users of a node. -/
structure UserCache where
  etag : Option (List Char)
  users : List PanelUser

namespace UserCache

def empty : UserCache := ⟨none, []⟩

end UserCache

/-- A speed limit in a JSON value, as bytes per second: a product of doubles,
or an error. -/
abbrev SpeedLimit := Json → Except String UInt64

variable (limit : SpeedLimit)

/-- No limit is zero. -/
def speedLimitBps : Option Json → Except String UInt64
  | none | some .null => .ok 0
  | some value => limit value

def readUser (item : Json) : Except UsersError PanelUser :=
  match speedLimitBps limit (item.get "speed_limit") with
  | .error e => .error (.speedLimit e)
  | .ok speedLimit => .ok {
      id := (((item.get "id").bind Json.asU64).getD 0).toUInt32
      speedLimit := speedLimit
      deviceLimit := (((item.get "device_limit").bind Json.asU64).getD 0).toUInt32
      uuid := ((item.get "uuid").bind Json.asStr).getD []
      password := (item.get "password").bind Json.asStr
      method := (item.get "method").bind Json.asStr
      port := ((item.get "port").bind Json.asU64).map UInt64.toUInt16
      flow := (item.get "flow").bind Json.asStr }

def readUsers (val : Json) : Except UsersError (List PanelUser) :=
  match ((val.get "users").or (val.get "data")).bind Json.asArray with
  | none => .error .noUsersArray
  | some items => items.mapM (readUser limit)

/-- From the reply on: the pair that is left, and what the call returns. -/
def UserCache.finish (cache : UserCache) : UsersReply →
    UserCache × Except UsersError (List PanelUser)
  | .transport => (cache, .error .transport)
  | .response status etag body =>
      if status.isNotModified then
        if cache.etag.isNone then (cache, .error .notModified) else (cache, .ok cache.users)
      else if !status.isSuccess then (cache, .error (.status status))
      else
        match body with
        | none => (cache, .error .decode)
        | some val =>
            match readUsers limit val with
            | .error e => (cache, .error e)
            | .ok users => (⟨etag, users⟩, .ok users)

/-! ### Calls -/

structure UsersRequest where
  url : String
  ifNoneMatch : Option (List Char)

inductive CallPhase where
  /-- Waits for the lock of its node. -/
  | waiting
  | sent (req : UsersRequest)
  | finished (result : Except UsersError (List PanelUser))
  | dropped

def CallPhase.holdsLock : CallPhase → Bool
  | .sent _ => true
  | _ => false

structure UsersCall where
  nodeId : UInt32
  phase : CallPhase

structure XboardClient where
  endpoint : Endpoint
  cachedUsers : AssocMap UInt32 UserCache
  calls : List UsersCall

inductive UsersEvent where
  | getUsers (nodeId : UInt32)
  | lock (tid : Nat)
  | reply (tid : Nat) (reply : UsersReply)
  /-- The caller drops the call. -/
  | cancel (tid : Nat)

namespace XboardClient

def new (endpoint : Endpoint) : XboardClient := ⟨endpoint, ∅, []⟩

/-- The pair of a node; without an entry, what a new entry holds. -/
def pair (client : XboardClient) (nodeId : UInt32) : UserCache :=
  (client.cachedUsers.get nodeId).getD .empty

def locked (client : XboardClient) (nodeId : UInt32) : Bool :=
  client.calls.any fun call => call.nodeId = nodeId && call.phase.holdsLock

def usersUrl (endpoint : Endpoint) (nodeId : UInt32) : String :=
  endpoint.baseUrl ++ "/api/v1/server/UniProxy/user?node_id=" ++ nodeId.toNat.repr ++ "&token="
    ++ endpoint.token

def setCall (client : XboardClient) (tid : Nat) (nodeId : UInt32) (phase : CallPhase) :
    XboardClient :=
  { client with calls := client.calls.set tid ⟨nodeId, phase⟩ }

def step (client : XboardClient) : UsersEvent → Option XboardClient
  | .getUsers nodeId =>
      some { client with
        cachedUsers :=
          if client.cachedUsers.contains nodeId then client.cachedUsers
          else client.cachedUsers.insert nodeId .empty
        calls := client.calls ++ [⟨nodeId, .waiting⟩] }
  | .lock tid =>
      match client.calls[tid]? with
      | some ⟨nodeId, .waiting⟩ =>
          if client.locked nodeId then none
          else
            let req := ⟨usersUrl client.endpoint nodeId, (client.pair nodeId).etag⟩
            some (client.setCall tid nodeId (.sent req))
      | _ => none
  | .reply tid reply =>
      match client.calls[tid]? with
      | some ⟨nodeId, .sent _⟩ =>
          let (cache, result) := (client.pair nodeId).finish limit reply
          some { client.setCall tid nodeId (.finished result) with
            cachedUsers := client.cachedUsers.insert nodeId cache }
      | _ => none
  | .cancel tid =>
      match client.calls[tid]? with
      | some ⟨nodeId, .waiting⟩ | some ⟨nodeId, .sent _⟩ =>
          some (client.setCall tid nodeId .dropped)
      | _ => none

end XboardClient

/-! ### The last valid reply -/

/-- What a reply brings, if its status is accepted and it has a user list. -/
def UsersReply.valid (accepts : StatusCode → Bool) : UsersReply → Option UserCache
  | .response status etag (some val) =>
      if accepts status then
        match readUsers limit val with
        | .ok users => some ⟨etag, users⟩
        | .error _ => none
      else none
  | _ => none

/-- Per node, what the last valid reply to a request for it brought. -/
abbrev LastValid := UInt32 → Option UserCache

def LastValid.post (accepts : StatusCode → Bool) (client : XboardClient) (last : LastValid) :
    UsersEvent → LastValid
  | .reply tid reply =>
      match client.calls[tid]? with
      | some ⟨nodeId, .sent _⟩ =>
          fun n => if n = nodeId then (reply.valid limit accepts).or (last n) else last n
      | _ => last
  | _ => last

/-- The client with the last valid replies beside it. -/
abbrev followed (accepts : StatusCode → Bool) :
    XboardClient × LastValid → UsersEvent → Option (XboardClient × LastValid) :=
  Run.track (XboardClient.step limit) (LastValid.post limit accepts)

/-- **What a step may do.**  The request of a call that ends in it is `req`. -/
structure Atomic (c c' : XboardClient × LastValid) (e : UsersEvent) : Prop where
  /-- An `Ok` is the list of the last valid reply for the node. -/
  ok : ∀ (tid : Nat) (nodeId : UInt32) (req : UsersRequest) (users : List PanelUser),
    c.1.calls[tid]? = some ⟨nodeId, .sent req⟩ →
      c'.1.calls[tid]? = some ⟨nodeId, .finished (.ok users)⟩ →
        ∃ etag, c'.2 nodeId = some ⟨etag, users⟩
  /-- A 304 is taken only for the ETag of that reply, which was sent. -/
  notModified : ∀ (tid : Nat) (nodeId : UInt32) (req : UsersRequest) (users : List PanelUser)
    (status : StatusCode) (etag : Option (List Char)) (body : Option Json),
    e = .reply tid (.response status etag body) → status.isNotModified = true →
      c.1.calls[tid]? = some ⟨nodeId, .sent req⟩ →
      c'.1.calls[tid]? = some ⟨nodeId, .finished (.ok users)⟩ →
        ∃ sent, c.2 nodeId = some ⟨some sent, users⟩ ∧ req.ifNoneMatch = some sent
  /-- A call that fails leaves every pair as it is. -/
  failed : ∀ (tid : Nat) (nodeId : UInt32) (req : UsersRequest) (err : UsersError),
    c.1.calls[tid]? = some ⟨nodeId, .sent req⟩ →
      c'.1.calls[tid]? = some ⟨nodeId, .finished (.error err)⟩ → ∀ n, c'.1.pair n = c.1.pair n
  /-- A reply changes the pair of its own node only. -/
  others : ∀ (tid : Nat) (reply : UsersReply) (call : UsersCall), e = .reply tid reply →
    c.1.calls[tid]? = some call → ∀ n ≠ call.nodeId, c'.1.pair n = c.1.pair n
  /-- Nothing but a reply changes a pair. -/
  quiet : (∀ tid reply, e ≠ .reply tid reply) → ∀ n, c'.1.pair n = c.1.pair n

/-! ### One step -/

section Step

variable {limit} {client client' : XboardClient} {e : UsersEvent}

open XboardClient

theorem isSuccess_of_isNotModified {status : StatusCode} (h : status.isNotModified = true) :
    status.isSuccess = false := by
  simp only [StatusCode.isNotModified, decide_eq_true_eq] at h
  simp [StatusCode.isSuccess, h]

/-- A reply fails, confirms the pair, or replaces it. -/
theorem UserCache.finish_cases (limit : SpeedLimit) (cache : UserCache) (reply : UsersReply) :
    (∃ err, cache.finish limit reply = (cache, .error err) ∧
      reply.valid limit StatusCode.isSuccess = none) ∨
    (∃ sent, cache.etag = some sent ∧ cache.finish limit reply = (cache, .ok cache.users) ∧
      reply.valid limit StatusCode.isSuccess = none) ∨
    (∃ new, reply.valid limit StatusCode.isSuccess = some new ∧
      cache.finish limit reply = (new, .ok new.users) ∧
      ∀ status etag body, reply = .response status etag body → status.isNotModified = false) := by
  cases reply with
  | transport => exact .inl ⟨.transport, rfl, rfl⟩
  | response status etag body =>
      have hinvalid : status.isSuccess = false →
          (UsersReply.response status etag body).valid limit StatusCode.isSuccess = none := by
        intro hfail
        cases body with
        | none => rfl
        | some val => simp [UsersReply.valid, hfail]
      cases hmod : status.isNotModified with
      | true =>
          have hvalid := hinvalid (isSuccess_of_isNotModified hmod)
          rcases hetag : cache.etag with - | sent
          · exact .inl ⟨.notModified, by simp [UserCache.finish, hmod, hetag], hvalid⟩
          · exact .inr (.inl ⟨sent, rfl, by simp [UserCache.finish, hmod, hetag], hvalid⟩)
      | false =>
          cases hok : status.isSuccess with
          | false => exact .inl ⟨.status status, by simp [UserCache.finish, hmod, hok], hinvalid hok⟩
          | true =>
              cases body with
              | none => exact .inl ⟨.decode, by simp [UserCache.finish, hmod, hok], rfl⟩
              | some val =>
                  rcases hread : readUsers limit val with err | users
                  · refine .inl ⟨err, ?_, ?_⟩
                    · simp [UserCache.finish, hmod, hok, hread]
                    · simp [UsersReply.valid, hread]
                  · refine .inr (.inr ⟨⟨etag, users⟩, ?_, ?_, ?_⟩)
                    · simp [UsersReply.valid, hok, hread]
                    · simp [UserCache.finish, hmod, hok, hread]
                    · rintro _ _ _ ⟨rfl, rfl, rfl⟩
                      exact hmod

/-- An `Ok` confirms the pair or is the list of a valid reply. -/
theorem UserCache.finish_ok {cache : UserCache} {reply : UsersReply} {users : List PanelUser}
    (h : (cache.finish limit reply).2 = .ok users) :
    (∃ sent, cache = ⟨some sent, users⟩ ∧ reply.valid limit StatusCode.isSuccess = none) ∨
    (∃ etag, reply.valid limit StatusCode.isSuccess = some ⟨etag, users⟩ ∧
      ∀ status etag body, reply = .response status etag body → status.isNotModified = false) := by
  rcases UserCache.finish_cases limit cache reply with
    ⟨err, hfinish, -⟩ | ⟨sent, hetag, hfinish, hvalid⟩ | ⟨new, hvalid, hfinish, hnot⟩
  · rw [hfinish] at h
    cases h
  · rw [hfinish] at h
    cases h
    exact .inl ⟨sent, by rw [← hetag], hvalid⟩
  · rw [hfinish] at h
    cases h
    exact .inr ⟨new.etag, hvalid, hnot⟩

/-- A failure leaves the pair. -/
theorem UserCache.finish_error {cache : UserCache} {reply : UsersReply} {err : UsersError}
    (h : (cache.finish limit reply).2 = .error err) : (cache.finish limit reply).1 = cache := by
  rcases UserCache.finish_cases limit cache reply with
    ⟨err, hfinish, -⟩ | ⟨sent, -, hfinish, -⟩ | ⟨new, -, hfinish, -⟩
  · rw [hfinish]
  · rw [hfinish] at h
    cases h
  · rw [hfinish] at h
    cases h

/-- **What a step does** to the calls and the pairs. -/
theorem XboardClient.step_cases (h : client.step limit e = some client') :
    (∃ nodeId, e = .getUsers nodeId ∧ client'.calls = client.calls ++ [⟨nodeId, .waiting⟩] ∧
      ∀ n, client'.pair n = client.pair n) ∨
    (∃ tid nodeId, e = .lock tid ∧ client.locked nodeId = false ∧
      client' = client.setCall tid nodeId
        (.sent ⟨usersUrl client.endpoint nodeId, (client.pair nodeId).etag⟩)) ∨
    (∃ tid nodeId req reply, e = .reply tid reply ∧
      client.calls[tid]? = some ⟨nodeId, .sent req⟩ ∧
      client'.calls =
        client.calls.set tid ⟨nodeId, .finished ((client.pair nodeId).finish limit reply).2⟩ ∧
      ∀ n, client'.pair n =
        if n = nodeId then ((client.pair nodeId).finish limit reply).1 else client.pair n) ∨
    (∃ tid nodeId, e = .cancel tid ∧ client' = client.setCall tid nodeId .dropped) := by
  cases e with
  | getUsers nodeId =>
      obtain rfl := Option.some.inj h
      refine .inl ⟨nodeId, rfl, rfl, ?_⟩
      intro n
      simp only [pair]
      split
      · rfl
      · rename_i hnew
        rw [AssocMap.get_insert]
        split
        · rename_i heq
          subst heq
          have hnone : client.cachedUsers.get n = none := by
            simpa [AssocMap.contains] using hnew
          rw [hnone]
          rfl
        · rfl
  | lock tid =>
      rw [step] at h
      split at h
      · rename_i nodeId hcall
        split at h
        · cases h
        · rename_i hfree
          obtain rfl := Option.some.inj h
          exact .inr (.inl ⟨tid, nodeId, rfl, by simpa using hfree, rfl⟩)
      · cases h
  | reply tid reply =>
      rw [step] at h
      split at h
      · rename_i nodeId req hcall
        obtain rfl := Option.some.inj h
        refine .inr (.inr (.inl ⟨tid, nodeId, req, reply, rfl, hcall, rfl, ?_⟩))
        intro n
        simp only [pair, AssocMap.get_insert]
        split <;> rfl
      · cases h
  | cancel tid =>
      rw [step] at h
      split at h
      · obtain rfl := Option.some.inj h
        exact .inr (.inr (.inr ⟨tid, _, rfl, rfl⟩))
      · obtain rfl := Option.some.inj h
        exact .inr (.inr (.inr ⟨tid, _, rfl, rfl⟩))
      · cases h

end Step

/-! ### The invariant -/

/-- The pairs are those of the last valid replies, and what is on the way asks
for them. -/
structure InStep (c : XboardClient × LastValid) : Prop where
  follows : ∀ n, c.1.pair n = (c.2 n).getD .empty
  sent : ∀ (tid : Nat) (nodeId : UInt32) (req : UsersRequest),
    c.1.calls[tid]? = some ⟨nodeId, .sent req⟩ → req.ifNoneMatch = (c.1.pair nodeId).etag
  exclusive : ∀ (tid other : Nat) (nodeId : UInt32) (req req' : UsersRequest),
    c.1.calls[tid]? = some ⟨nodeId, .sent req⟩ →
      c.1.calls[other]? = some ⟨nodeId, .sent req'⟩ → tid = other

theorem inStep_new (endpoint : Endpoint) : InStep (XboardClient.new endpoint, fun _ => none) where
  follows _ := rfl
  sent _ _ _ h := by cases h
  exclusive _ _ _ _ _ h := by cases h

section InStep

variable {limit} {c : XboardClient × LastValid} {client' : XboardClient}

open XboardClient

/-- Steps that send nothing and leave the pairs. -/
theorem InStep.keep (h : InStep c) (hpair : ∀ n, client'.pair n = c.1.pair n)
    (hsent : ∀ (tid : Nat) (nodeId : UInt32) (req : UsersRequest),
      client'.calls[tid]? = some ⟨nodeId, .sent req⟩ →
        c.1.calls[tid]? = some ⟨nodeId, .sent req⟩) : InStep (client', c.2) where
  follows n := (hpair n).trans (h.follows n)
  sent tid nodeId req hcall := by
    rw [h.sent tid nodeId req (hsent tid nodeId req hcall), hpair]
  exclusive tid other nodeId req req' hcall hother :=
    h.exclusive tid other nodeId req req' (hsent tid nodeId req hcall)
      (hsent other nodeId req' hother)

/-- While the lock of a node is free, nobody waits for a reply for it. -/
theorem not_sent_of_not_locked {client : XboardClient} {nodeId : UInt32}
    (h : client.locked nodeId = false) {tid : Nat} {req : UsersRequest} :
    client.calls[tid]? ≠ some ⟨nodeId, .sent req⟩ := by
  intro hcall
  have hmem := List.mem_of_getElem? hcall
  simp only [locked, List.any_eq_false] at h
  exact h _ hmem (by simp [CallPhase.holdsLock])

/-- The lock is taken, and the ETag of the pair is sent. -/
theorem InStep.lock (h : InStep c) {tid : Nat} {nodeId : UInt32}
    (hfree : c.1.locked nodeId = false) :
    InStep (c.1.setCall tid nodeId
      (.sent ⟨usersUrl c.1.endpoint nodeId, (c.1.pair nodeId).etag⟩), c.2) where
  follows := h.follows
  sent other n req hcall := by
    rcases Agents.getElem?_set_some hcall with ⟨-, hnew⟩ | ⟨-, hold⟩
    · cases hnew
      rfl
    · exact h.sent other n req hold
  exclusive i j n req req' hi hj := by
    rcases Agents.getElem?_set_some hi with ⟨rfl, hnew⟩ | ⟨-, hold⟩
    · cases hnew
      rcases Agents.getElem?_set_some hj with ⟨rfl, -⟩ | ⟨-, hold⟩
      · rfl
      · exact absurd hold (not_sent_of_not_locked hfree)
    · rcases Agents.getElem?_set_some hj with ⟨rfl, hnew⟩ | ⟨-, hold'⟩
      · cases hnew
        exact absurd hold (not_sent_of_not_locked hfree)
      · exact h.exclusive i j n req req' hold hold'

/-- The pair that a reply leaves is that of the last valid reply. -/
theorem finish_follows (h : InStep c) (nodeId : UInt32) (reply : UsersReply) :
    ((c.1.pair nodeId).finish limit reply).1 =
      ((reply.valid limit StatusCode.isSuccess).or (c.2 nodeId)).getD .empty := by
  rcases UserCache.finish_cases limit (c.1.pair nodeId) reply with
    ⟨err, hfinish, hvalid⟩ | ⟨sent, -, hfinish, hvalid⟩ | ⟨new, hvalid, hfinish, -⟩
  · rw [hfinish, hvalid, Option.none_or]
    exact h.follows nodeId
  · rw [hfinish, hvalid, Option.none_or]
    exact h.follows nodeId
  · rw [hfinish, hvalid]
    rfl

theorem InStep.reply (h : InStep c) {tid : Nat} {nodeId : UInt32} {req : UsersRequest}
    {reply : UsersReply} (hcall : c.1.calls[tid]? = some ⟨nodeId, .sent req⟩)
    (hcalls : client'.calls =
      c.1.calls.set tid ⟨nodeId, .finished ((c.1.pair nodeId).finish limit reply).2⟩)
    (hpair : ∀ n, client'.pair n =
      if n = nodeId then ((c.1.pair nodeId).finish limit reply).1 else c.1.pair n) :
    InStep (client', LastValid.post limit StatusCode.isSuccess c.1 c.2 (.reply tid reply)) := by
  have hold : ∀ (other : Nat) (n : UInt32) (req' : UsersRequest),
      client'.calls[other]? = some ⟨n, .sent req'⟩ →
        other ≠ tid ∧ c.1.calls[other]? = some ⟨n, .sent req'⟩ := by
    intro other n req' hother
    rw [hcalls] at hother
    rcases Agents.getElem?_set_some hother with ⟨-, hnew⟩ | hold
    · cases hnew
    · exact hold
  refine ⟨?_, ?_, ?_⟩
  · intro n
    simp only [LastValid.post, hcall, hpair]
    split
    · rename_i heq
      subst heq
      exact finish_follows h n reply
    · exact h.follows n
  · intro other n req' hother
    obtain ⟨hne, hother⟩ := hold other n req' hother
    -- the lock: no other call of this node is on the way
    have hn : n ≠ nodeId := by
      rintro rfl
      exact hne (h.exclusive other tid n req' req hother hcall)
    simp only [hpair, if_neg hn]
    exact h.sent other n req' hother
  · intro i j n req₁ req₂ hi hj
    exact h.exclusive i j n req₁ req₂ (hold i n req₁ hi).2 (hold j n req₂ hj).2

theorem InStep.step {c' : XboardClient × LastValid} {e : UsersEvent} (h : InStep c)
    (hstep : followed limit StatusCode.isSuccess c e = some c') : InStep c' := by
  obtain ⟨client', last'⟩ := c'
  obtain ⟨hclient, hlast⟩ := Run.track_eq_some.mp hstep
  simp only at hclient hlast
  subst hlast
  rcases step_cases hclient with ⟨nodeId, rfl, hcalls, hpair⟩ | ⟨tid, nodeId, rfl, hfree, rfl⟩ |
    ⟨tid, nodeId, req, reply, rfl, hcall, hcalls, hpair⟩ | ⟨tid, nodeId, rfl, rfl⟩
  · refine h.keep hpair ?_
    intro tid n req hcall
    rw [hcalls] at hcall
    rcases Agents.getElem?_concat hcall with hold | ⟨-, hnew⟩
    · exact hold
    · cases hnew
  · exact h.lock hfree
  · exact h.reply hcall hcalls hpair
  · refine h.keep (fun _ => rfl) ?_
    intro other n req hcall
    rcases Agents.getElem?_set_some hcall with ⟨-, hnew⟩ | ⟨-, hold⟩
    · cases hnew
    · exact hold

end InStep

/-! ### Every step of every run -/

section Runs

variable {limit} {c c' : XboardClient × LastValid} {e : UsersEvent} {tid : Nat} {nodeId : UInt32}
  {req : UsersRequest} {result : Except UsersError (List PanelUser)}

open XboardClient

/-- A call ends by its reply. -/
theorem reply_of_finished {client client' : XboardClient}
    (h : client.step limit e = some client')
    (hsent : client.calls[tid]? = some ⟨nodeId, .sent req⟩)
    (hend : client'.calls[tid]? = some ⟨nodeId, .finished result⟩) :
    ∃ reply, e = .reply tid reply ∧ result = ((client.pair nodeId).finish limit reply).2 ∧
      client'.pair nodeId = ((client.pair nodeId).finish limit reply).1 ∧
      ∀ n ≠ nodeId, client'.pair n = client.pair n := by
  have hsame : ∀ {call : UsersCall}, client.calls[tid]? = some call →
      call.phase ≠ .finished result := by
    intro call hcall heq
    obtain rfl := Option.some.inj (hsent.symm.trans hcall)
    cases heq
  rcases step_cases h with ⟨n, rfl, hcalls, -⟩ | ⟨i, n, rfl, -, rfl⟩ |
    ⟨i, n, req', reply, rfl, hcall, hcalls, hpair⟩ | ⟨i, n, rfl, rfl⟩
  · rw [hcalls] at hend
    rcases Agents.getElem?_concat hend with hold | ⟨-, hnew⟩
    · exact absurd rfl (hsame hold)
    · cases hnew
  · rcases Agents.getElem?_set_some hend with ⟨-, hnew⟩ | ⟨-, hold⟩
    · cases hnew
    · exact absurd rfl (hsame hold)
  · rw [hcalls] at hend
    rcases Agents.getElem?_set_some hend with ⟨rfl, hnew⟩ | ⟨-, hold⟩
    · cases hnew
      refine ⟨reply, rfl, rfl, ?_, ?_⟩
      · rw [hpair, if_pos rfl]
      · intro m hm
        rw [hpair, if_neg hm]
    · exact absurd rfl (hsame hold)
  · rcases Agents.getElem?_set_some hend with ⟨-, hnew⟩ | ⟨-, hold⟩
    · cases hnew
    · exact absurd rfl (hsame hold)

/-- A pair with an ETag is that of a valid reply. -/
theorem InStep.last_of_etag (h : InStep c) {sent : List Char} {users : List PanelUser}
    (hpair : c.1.pair nodeId = ⟨some sent, users⟩) : c.2 nodeId = some ⟨some sent, users⟩ := by
  rw [h.follows] at hpair
  rcases hlast : c.2 nodeId with - | cache
  · rw [hlast] at hpair
    cases hpair
  · rw [hlast, Option.getD_some] at hpair
    rw [hpair]

/-- The list that a reply makes a call return is that of the last valid reply,
this one or an earlier one. -/
theorem InStep.ok_of_reply (h : InStep c) {reply : UsersReply} {users : List PanelUser}
    (hok : ((c.1.pair nodeId).finish limit reply).2 = .ok users) :
    ∃ etag, (reply.valid limit StatusCode.isSuccess).or (c.2 nodeId) = some ⟨etag, users⟩ := by
  rcases UserCache.finish_ok hok with ⟨sent, hpair, hvalid⟩ | ⟨etag, hvalid, -⟩
  · refine ⟨some sent, ?_⟩
    rw [hvalid, Option.none_or, h.last_of_etag hpair]
  · refine ⟨etag, ?_⟩
    rw [hvalid, Option.some_or]

/-- A 304 confirms the list whose ETag was sent. -/
theorem InStep.ok_of_notModified (h : InStep c) {status : StatusCode} {etag : Option (List Char)}
    {body : Option Json} {users : List PanelUser} (hmod : status.isNotModified = true)
    (hsent : c.1.calls[tid]? = some ⟨nodeId, .sent req⟩)
    (hok : ((c.1.pair nodeId).finish limit (.response status etag body)).2 = .ok users) :
    ∃ sent, c.2 nodeId = some ⟨some sent, users⟩ ∧ req.ifNoneMatch = some sent := by
  rcases UserCache.finish_ok hok with ⟨sent, hpair, -⟩ | ⟨-, -, hnot⟩
  · refine ⟨sent, h.last_of_etag hpair, ?_⟩
    rw [h.sent tid nodeId req hsent, hpair]
  · rw [hnot status etag body rfl] at hmod
    cases hmod

/-- A reply changes the pair of the call's own node only. -/
theorem pair_of_reply {client client' : XboardClient} {reply : UsersReply} {call : UsersCall}
    (h : client.step limit (.reply tid reply) = some client')
    (hcall : client.calls[tid]? = some call) {n : UInt32} (hn : n ≠ call.nodeId) :
    client'.pair n = client.pair n := by
  rcases step_cases h with ⟨_, he, -⟩ | ⟨_, _, he, -⟩ | ⟨_, _, _, _, he, hcall', -, hpair⟩ |
    ⟨_, _, he, -⟩
  · cases he
  · cases he
  · cases he
    obtain rfl := Option.some.inj (hcall.symm.trans hcall')
    rw [hpair, if_neg hn]
  · cases he

/-- Nothing but a reply changes a pair. -/
theorem pair_of_quiet {client client' : XboardClient} (h : client.step limit e = some client')
    (hquiet : ∀ tid reply, e ≠ .reply tid reply) (n : UInt32) :
    client'.pair n = client.pair n := by
  rcases step_cases h with ⟨_, -, -, hpair⟩ | ⟨_, _, -, -, rfl⟩ | ⟨i, _, _, reply, he, -⟩ |
    ⟨_, _, -, rfl⟩
  · exact hpair n
  · rfl
  · exact absurd he (hquiet i reply)
  · rfl

/-- **The user lists of the nodes are atomic and their own**, in every step of
every run. -/
theorem get_users_atomic (endpoint : Endpoint) {es : List UsersEvent}
    (hrun : Run.exec (followed limit StatusCode.isSuccess) (new endpoint, fun _ => none) es =
      some c)
    (hstep : followed limit StatusCode.isSuccess c e = some c') : Atomic c c' e := by
  have hinv : InStep c := Run.exec_preserves InStep.step hrun (inStep_new endpoint)
  obtain ⟨hclient, hlast⟩ := Run.track_eq_some.mp hstep
  refine ⟨?_, ?_, ?_, ?_, ?_⟩
  · intro tid nodeId req users hsent hend
    obtain ⟨reply, rfl, hresult, -⟩ := reply_of_finished hclient hsent hend
    have hpost : c'.2 nodeId = (reply.valid limit StatusCode.isSuccess).or (c.2 nodeId) := by
      rw [hlast]
      simp [LastValid.post, hsent]
    rw [hpost]
    exact hinv.ok_of_reply hresult.symm
  · intro tid nodeId req users status etag body he hmod hsent hend
    obtain ⟨reply, he', hresult, -⟩ := reply_of_finished hclient hsent hend
    obtain ⟨-, rfl⟩ := UsersEvent.reply.inj (he.symm.trans he')
    exact hinv.ok_of_notModified hmod hsent hresult.symm
  · intro tid nodeId req err hsent hend n
    obtain ⟨reply, rfl, hresult, hpair, hothers⟩ := reply_of_finished hclient hsent hend
    by_cases hn : n = nodeId
    · subst hn
      rw [hpair, UserCache.finish_error hresult.symm]
    · exact hothers n hn
  · rintro tid reply call rfl hcall n hn
    exact pair_of_reply hclient hcall hn
  · intro hquiet n
    exact pair_of_quiet hclient hquiet n

end Runs

/-! ### Two short runs -/

def StatusCode.created : StatusCode := ⟨201, by decide⟩

def StatusCode.notModified : StatusCode := ⟨304, by decide⟩

/-- One megabit per second; nothing else is needed here. -/
def oneMegabit : SpeedLimit
  | .number (.posInt 1) => .ok 125000
  | _ => .error "Invalid panel speed limit"

/-- A list with one user. -/
def oneUser : Json :=
  .object [("users", .array [.object [("id", .number (.posInt 7)), ("uuid", .string "u"),
    ("speed_limit", .number (.posInt 1))]])]

/-- A list with an ETag, and a second call that has asked for it. -/
def askedAgain : List UsersEvent :=
  [.getUsers 1, .lock 0, .reply 0 (.response .ok (some "same".toList) (some oneUser)),
    .getUsers 1, .getUsers 2, .lock 1, .lock 2]

/-- The second call is told that nothing has changed. -/
theorem asked_again_atomic :
    ∃ c c', Run.exec (followed oneMegabit StatusCode.isSuccess)
        (XboardClient.new ⟨"", ""⟩, fun _ => none) askedAgain = some c ∧
      followed oneMegabit StatusCode.isSuccess c (.reply 1 (.response .notModified none none)) =
        some c' ∧
      Atomic c c' (.reply 1 (.response .notModified none none)) := by
  have hsome : ((Run.exec (followed oneMegabit StatusCode.isSuccess)
      (XboardClient.new ⟨"", ""⟩, fun _ => none) askedAgain).bind fun c =>
        followed oneMegabit StatusCode.isSuccess c
          (.reply 1 (.response .notModified none none))).isSome := by
    decide +kernel
  obtain ⟨c', hc'⟩ := Option.isSome_iff_exists.mp hsome
  obtain ⟨c, hrun, hstep⟩ := Option.bind_eq_some_iff.mp hc'
  exact ⟨c, c', hrun, hstep, get_users_atomic ⟨"", ""⟩ hrun hstep⟩

/-- A list that comes with status 201 is returned, and no reply had status
200. -/
theorem created_is_read :
    ¬ ∀ es c e c', Run.exec (followed oneMegabit fun status => status.code = 200)
        (XboardClient.new ⟨"", ""⟩, fun _ => none) es = some c →
      followed oneMegabit (fun status => status.code = 200) c e = some c' → Atomic c c' e := by
  intro hall
  have hsome : ((Run.exec (followed oneMegabit fun status => status.code = 200)
      (XboardClient.new ⟨"", ""⟩, fun _ => none) [.getUsers 1, .lock 0]).bind fun c =>
        followed oneMegabit (fun status => status.code = 200) c
          (.reply 0 (.response .created none (some oneUser)))).isSome := by
    decide +kernel
  obtain ⟨c', hc'⟩ := Option.isSome_iff_exists.mp hsome
  obtain ⟨c, hrun, hstep⟩ := Option.bind_eq_some_iff.mp hc'
  have hok := (hall _ c _ c' hrun hstep).ok 0 1
  obtain rfl := Option.some.inj hrun
  obtain rfl := Option.some.inj hstep
  obtain ⟨etag, hlast⟩ := hok _ _ rfl rfl
  cases hlast

end Elise
