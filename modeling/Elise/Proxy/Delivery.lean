/-
Elise/Proxy/Delivery.lean

A batch is forgotten only when the panel took it: the five clients composed
with the runner.

The runner subtracts a batch when `report_traffic` returns `Ok`; whether the
panel took it is decided by the status of an answer.  `Sound` is what a
client call must keep for the two to agree: a request that is answered with
success lists every item of the batch, at most one of them is, and `Ok` comes
with exactly one.  No client keeps it whatever the panel answers:

* where a redirect with 301, 302 or 303 is followed, the next request carries
  nothing, and its success is taken for that of the report;
* PPanel returns `Ok` after the fallback request without looking at its
  answer, so a batch both endpoints refused is forgotten;
* SSPanel refuses client and server errors only, so any other status outside
  the success range (a redirect without a `Location`, a 304) counts as taken.

`Understood` excludes exactly these answers, and under it the composition is
right over every run (`forgotten_only_when_taken`).
-/
import Elise.Proxy.Report

namespace Elise

/-! ### Payloads that list a batch -/

/-- The payload has one entry for each item, with its counters, and none for
other users. -/
structure Payload.Lists (p : Payload) (items : List TrafficItem) : Prop where
  item : ∀ item ∈ items, p.entries item.userId = [(item.u, item.d)]
  other : ∀ user, (∀ item ∈ items, item.userId ≠ user) → p.entries user = []

theorem Payload.Lists.carried {p : Payload} {items : List TrafficItem} (h : p.Lists items)
    (hnd : (items.map TrafficItem.userId).Nodup) (user : UInt32) (dir : Direction) :
    p.carried user dir = itemBytes items user dir := by
  by_cases hex : ∃ item ∈ items, item.userId = user
  · obtain ⟨item, hmem, rfl⟩ := hex
    rw [itemBytes_eq_of_mem hnd hmem]
    simp [Payload.carried, h.item item hmem, TrafficItem.bytes]
  · have hnone : ∀ item ∈ items, item.userId ≠ user := fun item hmem heq => hex ⟨item, hmem, heq⟩
    rw [itemBytes_eq_zero hnone]
    simp [Payload.carried, h.other user hnone]

theorem filter_userId_eq {items : List TrafficItem} (hnd : (items.map TrafficItem.userId).Nodup)
    {item : TrafficItem} (h : item ∈ items) :
    items.filter (fun i => i.userId = item.userId) = [item] := by
  induction items with
  | nil => simp at h
  | cons head items ih =>
      rw [List.map_cons, List.nodup_cons] at hnd
      obtain ⟨hhead, hnd⟩ := hnd
      rcases List.mem_cons.mp h with rfl | h
      · have hrest : items.filter (fun i => i.userId = item.userId) = [] := by
          apply List.filter_eq_nil_iff.mpr
          intro i hi heq
          exact hhead (of_decide_eq_true heq ▸ List.mem_map_of_mem hi)
        rw [List.filter_cons_of_pos (by simp), hrest]
      · have hne : head.userId ≠ item.userId := by
          intro heq
          exact hhead (heq ▸ List.mem_map_of_mem h)
        rw [List.filter_cons_of_neg (by simpa using hne)]
        exact ih hnd h

theorem lists_items {items : List TrafficItem} (hnd : (items.map TrafficItem.userId).Nodup) :
    (Payload.items items).Lists items where
  item item hmem := by
    simp only [Payload.entries, filter_userId_eq hnd hmem, List.map_cons, List.map_nil]
  other user hnone := by
    have hnil : items.filter (fun i => i.userId = user) = [] := by
      apply List.filter_eq_nil_iff.mpr
      intro i hi heq
      exact hnone i hi (of_decide_eq_true heq)
    simp only [Payload.entries, hnil, List.map_nil]

theorem lists_traffic {items : List TrafficItem} (hnd : (items.map TrafficItem.userId).Nodup) :
    (Payload.traffic (items.map fun t => ⟨t.userId, t.u, t.d⟩)).Lists items := by
  have hentries : ∀ user, (Payload.traffic (items.map fun t => ⟨t.userId, t.u, t.d⟩)).entries user
      = (Payload.items items).entries user := by
    intro user
    simp only [Payload.entries, List.filter_map, List.map_map]
    rfl
  refine ⟨?_, ?_⟩
  · intro item hmem
    rw [hentries]
    exact (lists_items hnd).item item hmem
  · intro user hnone
    rw [hentries]
    exact (lists_items hnd).other user hnone

/-- The text of the user id tells users apart. -/
theorem lists_payloadByUser {items : List TrafficItem}
    (hnd : (items.map TrafficItem.userId).Nodup) : (payloadByUser items).Lists items := by
  have hinj : Function.Injective fun user : UInt32 => user.toNat.repr := by
    intro x y hxy
    exact UInt32.toNat_inj.mp (Text.repr_injective hxy)
  have hkeys : (items.map fun item => (item.userId.toNat.repr, (item.u, item.d))).map Prod.fst
      = (items.map TrafficItem.userId).map fun user => user.toNat.repr := by
    simp [Function.comp_def]
  have hnd' : ((items.map fun item => (item.userId.toNat.repr, (item.u, item.d))).map
      Prod.fst).Nodup := by
    rw [hkeys]
    exact hnd.map hinj
  refine ⟨?_, ?_⟩
  · intro item hmem
    have hget := AssocMap.get_ofPairs_of_mem hnd' (List.mem_map_of_mem
      (f := fun item : TrafficItem => (item.userId.toNat.repr, (item.u, item.d))) hmem)
    simp only [payloadByUser, Payload.entries, hget, Option.toList_some]
  · intro user hnone
    have hget : (AssocMap.ofPairs (items.map fun item =>
        (item.userId.toNat.repr, (item.u, item.d)))).get user.toNat.repr = none := by
      apply AssocMap.get_ofPairs_eq_none.mpr
      rw [hkeys]
      intro hmem
      obtain ⟨user', hmem', heq⟩ := List.mem_map.mp hmem
      obtain ⟨item, hitem, rfl⟩ := List.mem_map.mp hmem'
      exact hnone item hitem (hinj heq)
    simp only [payloadByUser, Payload.entries, hget, Option.toList_none]

/-! ### Client calls -/

/-- A call for `items`, of which `n` requests were answered with success so
far, under the answers that `cond` admits.  A request without the batch is
what a redirect has made of one. -/
inductive Sending.Sound (cond : Request → Nat → Hop → Prop) (items : List TrafficItem) :
    Nat → Sending ReportResult → Prop
  | taken : Sound cond items 1 (.done (.ok ()))
  | refused (e : PanelError) : Sound cond items 0 (.done (.error e))
  | request {req : Request} {left : Nat} {k : Answer → Exchange ReportResult}
      (lists : req.payload.Lists items ∨ req.payload = .empty)
      (next : ∀ a, cond req left a →
        Sound cond items (if a.isSuccess then 1 else 0) (.next req left k a)) :
      Sound cond items 0 (.request req left k)

theorem Sending.Sound.done_inv {cond : Request → Nat → Hop → Prop} {items : List TrafficItem}
    {n : Nat} (h : Sending.Sound cond items n (.done (.ok ()))) : n = 1 := by
  cases h
  rfl

theorem Sending.Sound.request_inv {cond : Request → Nat → Hop → Prop} {items : List TrafficItem}
    {n left : Nat} {req : Request} {k : Answer → Exchange ReportResult}
    (h : Sending.Sound cond items n (.request req left k)) :
    n = 0 ∧ (req.payload.Lists items ∨ req.payload = .empty) ∧ ∀ a, cond req left a →
      Sending.Sound cond items (if a.isSuccess then 1 else 0) (.next req left k a) := by
  cases h with
  | request lists next => exact ⟨rfl, lists, next⟩

/-- A status that is neither success nor an error. -/
def StatusCode.isOther (s : StatusCode) : Bool :=
  !s.isSuccess && !s.isClientError && !s.isServerError

/-- The answers a client reads right.  A request that has lost the batch to a
redirect is not answered with success.  PPanel does not read the answer of the
fallback endpoint: it is a success, or a redirect that keeps the batch and is
followed.  SSPanel takes any status that is not an error for success, if it is
not followed. -/
def Understood (client : PanelClient) (req : Request) (left : Nat) (a : Hop) : Prop :=
  (req.payload = .empty → a.isSuccess = false) ∧
    match client with
    | .ppanel _ =>
        match req.payload with
        | .items _ => a.isSuccess = true ∨
            0 < left ∧ ∃ req', req.redirected a = some req' ∧ req'.payload ≠ .empty
        | _ => True
    | .sspanel _ =>
        match a with
        | .error => True
        | .response status _ _ => status.isOther = true → (req.redirected a).isSome = true
    | _ => True

section

variable {cond : Request → Nat → Hop → Prop} {items : List TrafficItem}
  {k : Answer → Exchange ReportResult}

/-- One `send`, by the redirects that it may still follow: `Good` is what its
requests have in common. -/
theorem sound_send {Good : Request → Prop}
    (hlists : ∀ req, Good req → req.payload.Lists items ∨ req.payload = .empty)
    (hfollow : ∀ req left a req', Good req → cond req left a → req.redirected a = some req' → Good req')
    (hanswer : ∀ req left a, Good req → cond req left a → req.redirected a = none →
      Sending.Sound cond items (if a.isSuccess then 1 else 0) (k a.answer).begin)
    (hmany : ∀ req a req', Good req → cond req 0 a → req.redirected a = some req' →
      Sending.Sound cond items 0 (k .error).begin)
    (left : Nat) {req : Request} (h : Good req) :
    Sending.Sound cond items 0 (.request req left k) := by
  induction left generalizing req with
  | zero =>
      refine .request (hlists req h) ?_
      intro a ha
      cases hnext : req.redirected a with
      | none =>
          rw [Sending.next_of_none hnext]
          exact hanswer req 0 a h ha hnext
      | some req' =>
          rw [Sending.next_zero hnext, (Request.redirected_eq_some hnext).1]
          exact hmany req a req' h ha hnext
  | succ left ih =>
      refine .request (hlists req h) ?_
      intro a ha
      cases hnext : req.redirected a with
      | none =>
          rw [Sending.next_of_none hnext]
          exact hanswer req (left + 1) a h ha hnext
      | some req' =>
          rw [Sending.next_succ hnext, (Request.redirected_eq_some hnext).1]
          exact ih (hfollow req (left + 1) a req' h ha hnext)

/-- The requests of a `send` carry the batch, until a redirect has dropped it. -/
theorem lists_redirected {req req' : Request} {a : Hop}
    (h : req.payload.Lists items ∨ req.payload = .empty) (hnext : req.redirected a = some req') :
    req'.payload.Lists items ∨ req'.payload = .empty := by
  rcases (Request.redirected_eq_some hnext).2 with hsame | hempty
  · rw [hsame]
    exact h
  · exact .inr hempty

end

section

variable {items : List TrafficItem} (hne : items ≠ []) (hnd : (items.map TrafficItem.userId).Nodup)
  (nodeId : UInt32)

include hnd

include hne in
theorem pushByUser_sound {cond : Request → Nat → Hop → Prop} (url : String)
    (query : List (String × String)) (context : String) :
    Sending.Sound cond items 0 (pushByUser url query context items).begin := by
  have hemp : items.isEmpty = false := List.isEmpty_eq_false_iff.mpr hne
  simp only [pushByUser, hemp, Bool.false_eq_true, if_false]
  refine sound_send (fun _ h => h) (fun _ _ _ _ h _ => lists_redirected h) ?_ ?_ _
    (.inl (lists_payloadByUser hnd))
  · intro req left a _ _ _
    cases a with
    | error => exact .refused _
    | response status location body =>
        show Sending.Sound cond items (if status.isSuccess then 1 else 0)
          (if !status.isSuccess then Exchange.done _ else .done (.ok ())).begin
        cases status.isSuccess
        · exact .refused _
        · exact .taken
  · intro req a req' _ _ _
    exact .refused _

/-- The fallback request of PPanel: its answer decides nothing, so it must be a
success. -/
theorem ppanelFallback_sound (c : Endpoint) (url : String) :
    Sending.Sound (Understood (.ppanel c)) items 0
      (.request ⟨.post, url, [], .items items⟩ maxRedirects fun _ => .done (.ok ())) := by
  refine @sound_send _ _ _ (fun req => req.payload = .items items) ?_ ?_ ?_ ?_ _ _ rfl
  · intro req h
    rw [h]
    exact .inl (lists_items hnd)
  · intro req left a req' h hunder hnext
    have hdecided := hunder.2
    simp only [h] at hdecided
    rcases hdecided with hok | ⟨-, req'', hnext', hkeeps⟩
    · rw [(Request.redirected_eq_some hnext).1] at hok
      cases hok
    · rw [hnext] at hnext'
      obtain rfl := Option.some.inj hnext'
      rcases (Request.redirected_eq_some hnext).2 with hsame | hempty
      · rw [hsame, h]
      · exact absurd hempty hkeeps
  · intro req left a h hunder hnone
    have hdecided := hunder.2
    simp only [h, hnone] at hdecided
    rcases hdecided with hok | ⟨-, req'', hnext', -⟩
    · rw [if_pos hok]
      exact .taken
    · cases hnext'
  · intro req a req' h hunder hnext
    have hdecided := hunder.2
    simp only [h] at hdecided
    rcases hdecided with hok | ⟨hlt, -⟩
    · rw [(Request.redirected_eq_some hnext).1] at hok
      cases hok
    · exact absurd hlt (Nat.lt_irrefl 0)

include hne in
theorem ppanel_sound (c : Endpoint) :
    Sending.Sound (Understood (.ppanel c)) items 0 (PPanelClient.reportTraffic c nodeId items).begin := by
  have hemp : items.isEmpty = false := List.isEmpty_eq_false_iff.mpr hne
  simp only [PPanelClient.reportTraffic, hemp, Bool.false_eq_true, if_false]
  refine sound_send (fun _ h => h) (fun _ _ _ _ h _ => lists_redirected h) ?_ ?_ _
    (.inl (lists_traffic hnd))
  · intro req left a _ _ _
    rw [Hop.isSuccess_answer]
    cases a.isSuccess
    · exact ppanelFallback_sound hnd c _
    · exact .taken
  · intro req a req' _ _ _
    exact ppanelFallback_sound hnd c _

theorem sspanel_sound (c : Endpoint) :
    Sending.Sound (Understood (.sspanel c)) items 0
      (SSPanelClient.reportTraffic c nodeId items).begin := by
  refine sound_send (fun _ h => h) (fun _ _ _ _ h _ => lists_redirected h) ?_ ?_ _
    (.inl (lists_items hnd))
  · intro req left a _ hunder hnone
    cases a with
    | error => exact .refused _
    | response status location body =>
        have hother : status.isOther = false := by
          have hfollowed := hunder.2
          simp only [hnone, Option.isSome_none, Bool.false_eq_true, imp_false,
            Bool.not_eq_true] at hfollowed
          exact hfollowed
        show Sending.Sound _ items (if status.isSuccess then 1 else 0)
          (if status.isClientError || status.isServerError then Exchange.done _ else .done (.ok ())).begin
        -- under `isOther = false` a status is a success or an error, and SSPanel reads both
        cases hs : status.isSuccess
        · have herr : (status.isClientError || status.isServerError) = true := by
            rw [StatusCode.isOther, hs, Bool.not_false, Bool.true_and, ← Bool.not_or,
              Bool.not_eq_false'] at hother
            exact hother
          rw [if_pos herr]
          exact .refused _
        · have herr : (status.isClientError || status.isServerError) = false := by
            simp only [StatusCode.isSuccess, Bool.and_eq_true, decide_eq_true_eq] at hs
            simp only [StatusCode.isClientError, StatusCode.isServerError, Bool.or_eq_false_iff,
              Bool.and_eq_false_iff, decide_eq_false_iff_not]
            omega
          rw [if_pos rfl, herr]
          exact .taken
  · intro req a req' _ _ _
    exact .refused _

include hne in
/-- **Every client is sound under the answers it understands.** -/
theorem client_sound (client : PanelClient) :
    Sending.Sound (Understood client) items 0 (client.reportTraffic nodeId items).begin := by
  cases client with
  | xboard c => exact pushByUser_sound hne hnd _ _ _
  | v2board c => exact pushByUser_sound hne hnd _ _ _
  | xiaoV2board c => exact pushByUser_sound hne hnd _ _ _
  | ppanel c => exact ppanel_sound hne hnd nodeId c
  | sspanel c => exact sspanel_sound hnd nodeId c

end

/-! ### What was forgotten and what was taken -/

/-- The bytes removed from the buffer, the bytes carried by requests answered
with success, and the number of those in the current report. -/
structure Receipts where
  removed : UInt32 → Direction → Nat
  carried : UInt32 → Direction → Nat
  accepted : Nat

namespace Receipts

def blank : Receipts := ⟨fun _ _ => 0, fun _ _ => 0, 0⟩

/-- File a step of the runner. -/
def file (g : Receipts) (r : NodeRunner) : RunnerEvent → Receipts
  | .snapshot _ => { g with accepted := 0 }
  | .answer a =>
      match r.phase with
      | .reporting _ _ (.request req _ _) =>
          if a.isSuccess then
            { g with
              carried := fun user dir => g.carried user dir + req.payload.carried user dir
              accepted := g.accepted + 1 }
          else g
      | _ => g
  | .resume =>
      match r.phase with
      | .reporting items _ (.done (.ok _)) =>
          { g with
            removed := fun user dir => g.removed user dir + (r.trafficBuffer.bytes user dir
              - (r.trafficBuffer.acknowledge items).bytes user dir) }
      | _ => g
  | _ => g

def post {env : ReportEnv} (h : Host env) (g : Receipts) : Event → Receipts
  | .run e =>
      match h.runner with
      | some r => g.file r e
      | none => g
  | _ => g

end Receipts

/-- The client understands the answer that this step brings. -/
def ReadsRight {env : ReportEnv} (client : PanelClient) (h : Host env) : Event → Prop
  | .run (.answer a) => ∀ r items active req left k, h.runner = some r →
      r.phase = .reporting items active (.request req left k) → Understood client req left a
  | _ => True

/-- What is out for a report is covered: while a call is under way its batch
counts as carried once it was accepted, and is not removed before. -/
structure Covered (client : PanelClient) (g : Receipts) (phase : ReportPhase) : Prop where
  fresh : ∀ items active, phase = .persisting items active →
    items ≠ [] ∧ (items.map TrafficItem.userId).Nodup ∧ g.accepted = 0
  nodup : ∀ items active call, phase = .reporting items active call →
    (items.map TrafficItem.userId).Nodup
  sound : ∀ items active call, phase = .reporting items active call →
    Sending.Sound (Understood client) items g.accepted call
  reserve : ∀ items active call, phase = .reporting items active call → ∀ user dir,
    g.removed user dir + g.accepted * itemBytes items user dir ≤ g.carried user dir

/-- A phase without a batch asks for nothing. -/
theorem covered_of_items_nil {client : PanelClient} {g : Receipts} {phase : ReportPhase}
    (hp : ∀ items active, phase ≠ .persisting items active)
    (hr : ∀ items active call, phase ≠ .reporting items active call) :
    Covered client g phase where
  fresh items active h := absurd h (hp items active)
  nodup items active call h := absurd h (hr items active call)
  sound items active call h := absurd h (hr items active call)
  reserve items active call h := absurd h (hr items active call)

structure Delivered (client : PanelClient) {env : ReportEnv} (c : Host env × Receipts) : Prop where
  taken : ∀ user dir, c.2.removed user dir ≤ c.2.carried user dir
  once : c.2.accepted ≤ 1
  runner : ∀ r, c.1.runner = some r → Covered client c.2 r.phase

section

variable {json : PendingCodec} {client : PanelClient} {nodeId : UInt32} {min : UInt64}

theorem covered_snapshot {g : Receipts} (r : NodeRunner) (force : Bool) :
    Covered client { g with accepted := 0 }
      (r.snapshot (.ofClient json client nodeId min) force).phase := by
  simp only [NodeRunner.snapshot]
  split
  · exact covered_of_items_nil (by simp) (by simp)
  · rename_i hne
    refine ⟨?_, by simp, by simp, by simp⟩
    intro items active h
    obtain ⟨rfl, -⟩ := ReportPhase.persisting.inj h
    exact ⟨fun hnil => hne (by simp [hnil]), TrafficBuffer.nodup_batch _ _ _, rfl⟩

/-- The call that starts after a save is sound. -/
theorem covered_afterSave {g : Receipts} {phase : ReportPhase}
    (hc : Covered client g phase) (htaken : ∀ user dir, g.removed user dir ≤ g.carried user dir)
    (outcome : SaveOutcome) :
    Covered client g
      (NodeRunner.afterSave (.ofClient json client nodeId min) outcome phase) := by
  cases phase with
  | persisting items active =>
      obtain ⟨hne, hnd, hzero⟩ := hc.fresh items active rfl
      cases outcome with
      | ok =>
          have hsound := client_sound hne hnd nodeId client
          refine ⟨by simp [NodeRunner.afterSave], ?_, ?_, ?_⟩
          · intro items' active' call h
            obtain ⟨rfl, -, -⟩ := ReportPhase.reporting.inj h
            exact hnd
          · intro items' active' call h
            obtain ⟨rfl, -, rfl⟩ := ReportPhase.reporting.inj h
            rw [hzero]
            exact hsound
          · intro items' active' call h user dir
            rw [hzero, Nat.zero_mul]
            exact htaken user dir
      | failed | syncFailed =>
          exact covered_of_items_nil (by simp [NodeRunner.afterSave]) (by simp [NodeRunner.afterSave])
  | flushing active =>
      exact covered_of_items_nil (by simp [NodeRunner.afterSave]) (by simp [NodeRunner.afterSave])
  | idle | reporting _ _ _ | closing _ => exact hc

/-- An answer moves the call on; a success fills the reserve with the batch. -/
theorem delivered_answer {g : Receipts} {r : NodeRunner} {items : List TrafficItem}
    {active : AssocMap UInt32 UInt64} {req : Request} {left : Nat} {k : Answer → Exchange ReportResult}
    {a : Hop} (hc : Covered client g r.phase)
    (htaken : ∀ user dir, g.removed user dir ≤ g.carried user dir)
    (hphase : r.phase = .reporting items active (.request req left k))
    (hunder : Understood client req left a) :
    (∀ user dir, (g.file r (.answer a)).removed user dir
      ≤ (g.file r (.answer a)).carried user dir) ∧
    (g.file r (.answer a)).accepted ≤ 1 ∧
    Covered client (g.file r (.answer a)) (.reporting items active (.next req left k a)) := by
  have hnd := hc.nodup items active _ hphase
  have hreserve := hc.reserve items active _ hphase
  obtain ⟨hzero, hlists, hnext⟩ := Sending.Sound.request_inv (hc.sound items active _ hphase)
  have hsound := hnext a hunder
  cases ha : a.isSuccess
  -- not taken: the receipts stay as they are
  · have hfile : g.file r (.answer a) = g := by
      simp [Receipts.file, hphase, ha]
    rw [hfile]
    refine ⟨htaken, by omega, by simp, ?_, ?_, ?_⟩
    · intro items' active' call h
      obtain ⟨rfl, -, -⟩ := ReportPhase.reporting.inj h
      exact hnd
    · intro items' active' call h
      obtain ⟨rfl, -, rfl⟩ := ReportPhase.reporting.inj h
      simpa only [ha, hzero, Bool.false_eq_true, if_false] using hsound
    · intro items' active' call h
      obtain ⟨rfl, -, -⟩ := ReportPhase.reporting.inj h
      exact hreserve
  -- taken: the batch is carried once more than it was removed
  · have hfile : g.file r (.answer a) =
        { g with
          carried := fun user dir => g.carried user dir + req.payload.carried user dir
          accepted := g.accepted + 1 } := by
      simp [Receipts.file, hphase, ha]
    rw [hfile]
    refine ⟨?_, ?_, by simp, ?_, ?_, ?_⟩
    · intro user dir
      exact Nat.le_add_right_of_le (htaken user dir)
    · show g.accepted + 1 ≤ 1
      omega
    · intro items' active' call h
      obtain ⟨rfl, -, -⟩ := ReportPhase.reporting.inj h
      exact hnd
    · intro items' active' call h
      obtain ⟨rfl, -, rfl⟩ := ReportPhase.reporting.inj h
      simpa only [ha, hzero, if_true] using hsound
    · intro items' active' call h user dir
      obtain ⟨rfl, -, -⟩ := ReportPhase.reporting.inj h
      show g.removed user dir + (g.accepted + 1) * itemBytes items user dir
        ≤ g.carried user dir + req.payload.carried user dir
      have hbatch : req.payload.Lists items := by
        refine hlists.resolve_right fun hempty => ?_
        rw [hunder.1 hempty] at ha
        cases ha
      rw [hbatch.carried hnd, hzero, Nat.zero_add, Nat.one_mul]
      exact Nat.add_le_add_right (htaken user dir) _

/-- An acknowledgement is paid from the reserve. -/
theorem removed_le_resume {g : Receipts} {r : NodeRunner} {items : List TrafficItem}
    {active : AssocMap UInt32 UInt64} (hc : Covered client g r.phase)
    (hphase : r.phase = .reporting items active (.done (.ok ()))) (user : UInt32)
    (dir : Direction) :
    (g.file r .resume).removed user dir ≤ (g.file r .resume).carried user dir := by
  have hone : g.accepted = 1 := Sending.Sound.done_inv (hc.sound items active _ hphase)
  have hreserve := hc.reserve items active _ hphase user dir
  have hack := TrafficBuffer.bytes_le_acknowledge_add r.trafficBuffer items user dir
  rw [hone, Nat.one_mul] at hreserve
  simp only [Receipts.file, hphase]
  omega

theorem advance_delivered {g : Receipts} {r r' : NodeRunner} {e : RunnerEvent}
    (htaken : ∀ user dir, g.removed user dir ≤ g.carried user dir) (honce : g.accepted ≤ 1)
    (hc : Covered client g r.phase)
    (hread : ∀ a, e = .answer a → ∀ items active req left k,
      r.phase = .reporting items active (.request req left k) → Understood client req left a)
    (hadv : r.advance (.ofClient json client nodeId min) e = some r') :
    (∀ user dir, (g.file r e).removed user dir ≤ (g.file r e).carried user dir) ∧
      (g.file r e).accepted ≤ 1 ∧ Covered client (g.file r e) r'.phase := by
  cases e with
  | onTraffic userId up down =>
      obtain rfl := Option.some.inj hadv
      exact ⟨htaken, honce, hc⟩
  | snapshot force =>
      obtain ⟨-, rfl⟩ := NodeRunner.advance_snapshot hadv
      exact ⟨htaken, Nat.zero_le _, covered_snapshot r force⟩
  | saveBegin saver =>
      obtain ⟨-, -, rfl⟩ := NodeRunner.advance_saveBegin hadv
      exact ⟨htaken, honce, hc⟩
  | saveEnd outcome =>
      rcases NodeRunner.advance_saveEnd hadv with ⟨copy, -, rfl⟩ | ⟨copy, -, rfl⟩
      · exact ⟨htaken, honce, covered_afterSave hc htaken outcome⟩
      · exact ⟨htaken, honce, hc⟩
  | answer a =>
      obtain ⟨items, active, req, left, k, hphase, rfl⟩ := NodeRunner.advance_answer hadv
      exact delivered_answer hc htaken hphase (hread a rfl items active req left k hphase)
  | resume =>
      rcases NodeRunner.advance_resume hadv with
        ⟨items, active, hphase, rfl⟩ | ⟨items, active, err, hphase, rfl⟩
      · refine ⟨removed_le_resume hc hphase, ?_, covered_of_items_nil (by simp) (by simp)⟩
        simpa only [Receipts.file, hphase] using honce
      · have hfile : g.file r .resume = g := by
          simp [Receipts.file, hphase]
        rw [hfile]
        exact ⟨htaken, honce, covered_of_items_nil (by simp) (by simp)⟩
  | close =>
      obtain ⟨-, rfl⟩ := NodeRunner.advance_close hadv
      exact ⟨htaken, honce, covered_of_items_nil (by simp) (by simp)⟩
  | cancel =>
      obtain rfl := NodeRunner.advance_cancel hadv
      exact ⟨htaken, honce, covered_of_items_nil (by simp) (by simp)⟩

theorem delivered_step {c c' : Host (.ofClient json client nodeId min) × Receipts} {e : Event}
    (hinv : Delivered client c) (hread : ReadsRight client c.1 e)
    (hs : Run.track Host.step Receipts.post c e = some c') : Delivered client c' := by
  obtain ⟨h, g⟩ := c
  obtain ⟨h', g'⟩ := c'
  obtain ⟨hstep, rfl⟩ := Run.track_eq_some.mp hs
  dsimp only at hstep hread
  rcases Host.step_cases hstep with
    ⟨readable, rfl, hdown, rfl⟩ | ⟨r₀, rfl, hup, rfl⟩ | ⟨ev, r₀, r', rfl, hup, hadv, rfl⟩
  · refine ⟨hinv.taken, hinv.once, ?_⟩
    intro r hr
    obtain ⟨buf, -, rfl⟩ := Host.boot_runner_eq_some hdown hr
    exact covered_of_items_nil (by simp) (by simp)
  · refine ⟨hinv.taken, hinv.once, ?_⟩
    intro r hr
    cases hr
  · have hadvanced := advance_delivered hinv.taken hinv.once (hinv.runner r₀ hup) (by
      rintro a rfl items active req left k hphase
      exact hread r₀ items active req left k hup hphase) hadv
    obtain ⟨htaken, honce, hcov⟩ := hadvanced
    have hpost : g.post h (.run ev) = g.file r₀ ev := by
      simp only [Receipts.post, hup]
    refine ⟨?_, ?_, ?_⟩
    · show ∀ user dir, (g.post h (.run ev)).removed user dir ≤ (g.post h (.run ev)).carried user dir
      rw [hpost]
      exact htaken
    · show (g.post h (.run ev)).accepted ≤ 1
      rw [hpost]
      exact honce
    · intro r hr
      obtain rfl := Option.some.inj hr
      show Covered client (g.post h (.run ev)) r'.phase
      rw [hpost]
      exact hcov

theorem delivered_blank {h : Host (.ofClient json client nodeId min)} (hdown : h.runner = none) :
    Delivered client (h, Receipts.blank) where
  taken _ _ := Nat.le_refl _
  once := Nat.zero_le _
  runner r hr := by
    simp [hdown] at hr

end

/-! ### Delivery over whole runs -/

/-- **A batch is forgotten only when the panel took it.**  For each of the
five clients and every run in which the client understands the answers it
gets: per user and direction, the bytes removed from the buffer are at most
those carried by requests answered with success; at most one request of a
report is answered with success; and a request that is answered with success
lists every item of the batch with its counters. -/
theorem forgotten_only_when_taken (json : PendingCodec) (client : PanelClient) (nodeId : UInt32)
    (min : UInt64) {h h' : Host (.ofClient json client nodeId min)} {es : List Event}
    {g' : Receipts} (hdown : h.runner = none)
    (hread : Run.Along (Run.track Host.step Receipts.post)
      (fun c e => ReadsRight client c.1 e) (h, Receipts.blank) es)
    (hrun : Run.exec (Run.track Host.step Receipts.post) (h, Receipts.blank) es
      = some (h', g')) :
    (∀ user dir, g'.removed user dir ≤ g'.carried user dir) ∧
    g'.accepted ≤ 1 ∧
    (∀ r items active req left k a, h'.runner = some r →
      r.phase = .reporting items active (.request req left k) → Understood client req left a →
      a.isSuccess = true → req.payload.Lists items) := by
  have hinv : Delivered client (h', g') :=
    Run.exec_invariant delivered_step hrun hread (delivered_blank hdown)
  refine ⟨hinv.taken, hinv.once, ?_⟩
  intro r items active req left k a hr hphase hunder hok
  obtain ⟨-, hlists, -⟩ := Sending.Sound.request_inv ((hinv.runner r hr).sound items active _ hphase)
  refine hlists.resolve_right fun hempty => ?_
  rw [hunder.1 hempty] at hok
  cases hok

/-- A PPanel node with a plain store. -/
def ppanelClient : PanelClient := .ppanel ⟨"http://127.0.0.1:1", "fixture"⟩

def ppanelHost : Host (.ofClient .plain ppanelClient 1 0) := ⟨none, none⟩

/-- A report whose two requests are answered with the given statuses. -/
def fallbackRun (official fallback : StatusCode) : List Event :=
  [.start true, .run (.onTraffic 42 100 500), .run (.snapshot false), .run (.saveBegin .report),
    .run (.saveEnd .ok), .run (.answer (.response official none none)),
    .run (.answer (.response fallback none none)), .run .resume]

theorem forgotten_only_when_taken_fallback :
    ∃ (h' : Host (.ofClient .plain ppanelClient 1 0)) (g' : Receipts),
      Run.exec (Run.track Host.step Receipts.post) (ppanelHost, Receipts.blank)
        (fallbackRun .internalServerError .ok) = some (h', g') ∧
      g'.removed 42 .down = 500 ∧ g'.accepted = 1 ∧
      g'.removed 42 .down ≤ g'.carried 42 .down := by
  refine ⟨_, _, rfl, rfl, rfl, ?_⟩
  refine (@forgotten_only_when_taken .plain ppanelClient 1 0 ppanelHost _
    (fallbackRun .internalServerError .ok) _ rfl ?_ rfl).1 42 .down
  refine Run.along_cons trivial rfl (Run.along_cons trivial rfl (Run.along_cons trivial rfl
    (Run.along_cons trivial rfl (Run.along_cons trivial rfl (Run.along_cons ?_ rfl
      (Run.along_cons ?_ rfl (Run.along_cons trivial rfl trivial)))))))
  · intro r items active req left k hr hphase
    obtain rfl := Option.some.inj hr
    obtain ⟨-, -, hcall⟩ := ReportPhase.reporting.inj hphase
    obtain ⟨rfl, -⟩ := Sending.request.inj hcall
    exact ⟨fun _ => rfl, trivial⟩
  · intro r items active req left k hr hphase
    obtain rfl := Option.some.inj hr
    obtain ⟨-, -, hcall⟩ := ReportPhase.reporting.inj hphase
    obtain ⟨rfl, -⟩ := Sending.request.inj hcall
    refine ⟨?_, .inl rfl⟩
    rintro ⟨⟩

def xboardClient : PanelClient := .xboard ⟨"http://127.0.0.1:1", "fixture"⟩

def xboardHost : Host (.ofClient .plain xboardClient 1 0) := ⟨none, none⟩

/-- A report that is redirected with 302 and then answered with success. -/
def redirectedRun : List Event :=
  [.start true, .run (.onTraffic 42 100 500), .run (.snapshot false), .run (.saveBegin .report),
    .run (.saveEnd .ok), .run (.answer (.response ⟨302, by decide⟩ (some "http://127.0.0.1:1/login") none)),
    .run (.answer (.response .ok none none)), .run .resume]

/-- Both PPanel endpoints refuse the batch and it is removed; and a batch that
Xboard has redirected away is removed. -/
theorem forgotten_though_refused :
    (∃ (h' : Host (.ofClient .plain ppanelClient 1 0)) (g' : Receipts),
      Run.exec (Run.track Host.step Receipts.post) (ppanelHost, Receipts.blank)
        (fallbackRun .internalServerError .internalServerError) = some (h', g') ∧
      ¬ g'.removed 42 .down ≤ g'.carried 42 .down) ∧
    ∃ (h' : Host (.ofClient .plain xboardClient 1 0)) (g' : Receipts),
      Run.exec (Run.track Host.step Receipts.post) (xboardHost, Receipts.blank) redirectedRun =
        some (h', g') ∧
      ¬ g'.removed 42 .down ≤ g'.carried 42 .down := by
  constructor
  · refine ⟨_, _, rfl, ?_⟩
    decide
  · refine ⟨_, _, rfl, ?_⟩
    decide

end Elise
