/-
Elise/Vless/Policy.lean

The two TCP handlers of VLESS (src/protocol/vless/mod.rs): from the first
payload of a client to the audit, the router and the call of `dial`.

The plain handler sniffs a name for the audit and the router whenever
`domain_sniff` is set and the target is an address.  The Vision handler does so
only where `sniff_redirect` is set too: without it, it dials while it waits for
the payload, and the name in the payload is never looked at.  With it, it
gives up if the client ends before a payload.  The two decide alike exactly
under `VisionAlike` (`vision_policy_exact`).
-/
import Elise.Inbound.Sniffed

namespace Elise

open Net FirstMatch

namespace Vless

/-- What becomes of a connection. -/
inductive Outcome where
  | blocked
  /-- The client ended before its first payload. -/
  | clientEof
  | dialed (call : DialCall)

/-- The plain handler has two of them. -/
def Outcome.ofCall : Option DialCall → Outcome
  | none => .blocked
  | some call => .dialed call

section

variable {env : Matching} (ctx : InboundContext env) (target : Target) (roll : Nat)

/-- `handle_vless_vision_tcp`, when `read_payload` returns `payload` first. -/
def handleVlessVisionTcp (payload : List UInt8) : Outcome :=
  if !ctx.sniffRedirect || target.ip.isNone then
    if ctx.audit.shouldBlock ctx.geo target.host target.ip target.port then .blocked
    else
      let outbound := matchOutbound ctx.geo ctx.routes roll
        ⟨ctx.nodeId, "tcp".toList, target.host, target.ip, target.port⟩
      -- the dial runs beside the read and does not wait for the payload
      .dialed ⟨outbound, target.host, target.port⟩
  else if payload.isEmpty then .clientEof
  else
    let sniffed := if ctx.domainSniff then (sniffDomain payload).map Prod.fst else none
    let matchHost := sniffed.getD target.host
    let dialHost := if ctx.sniffRedirect then matchHost else target.host
    if ctx.audit.shouldBlock ctx.geo matchHost target.ip target.port then .blocked
    else
      let outbound := matchOutbound ctx.geo ctx.routes roll
        ⟨ctx.nodeId, "tcp".toList, matchHost, target.ip, target.port⟩
      .dialed ⟨outbound, dialHost, target.port⟩

/-- The name in a payload, where names are looked for. -/
def nameIn (payload : List UInt8) : Option (List Char) :=
  if ctx.domainSniff then (sniffDomain payload).map Prod.fst else none

/-- The question to the router under a name. -/
def question (name : List Char) : MatchContext :=
  ⟨ctx.nodeId, "tcp".toList, name, target.ip, target.port⟩

/-- The audit and the router treat a name as they treat the host that was
asked for: both are blocked or neither is; and then, at the first entry or
rule that accepts one of them, it accepts both, or the other ends up at the
same outbound. -/
def TreatedAlike (name : List Char) : Prop :=
  ctx.audit.shouldBlock ctx.geo name target.ip target.port =
      ctx.audit.shouldBlock ctx.geo target.host target.ip target.port ∧
    (ctx.audit.shouldBlock ctx.geo target.host target.ip target.port = false →
      SameDecision ctx.routes.fallback (ctx.routes.leadsTo ctx.geo roll (question ctx target name))
        (ctx.routes.leadsTo ctx.geo roll (question ctx target target.host))
        ctx.routes.alternatives)

/-- When the two handlers decide alike. -/
def VisionAlike (payload : List UInt8) : Prop :=
  target.ip = none ∨ (ctx.sniffRedirect = true ∧ payload ≠ []) ∨
    (ctx.sniffRedirect = false ∧
      ∀ name, nameIn ctx payload = some name → TreatedAlike ctx target roll name)

end

section

variable {env : Matching} {ctx : InboundContext env} {target : Target} {roll : Nat}

theorem ofCall_callDial (sniffed : Option (List Char)) :
    Outcome.ofCall (callDial ctx target roll sniffed) =
      if ctx.audit.shouldBlock ctx.geo (sniffed.getD target.host) target.ip target.port then .blocked
      else .dialed
        ⟨matchOutbound ctx.geo ctx.routes roll (question ctx target (sniffed.getD target.host)),
          if ctx.sniffRedirect then sniffed.getD target.host else target.host, target.port⟩ := by
  rw [callDial]
  dsimp only
  split
  · rfl
  · rfl

/-- Without `sniff_redirect` the Vision handler goes on without a name. -/
theorem vision_of_host {payload : List UInt8}
    (h : ctx.sniffRedirect = false ∨ target.ip = none) :
    handleVlessVisionTcp ctx target roll payload = .ofCall (callDial ctx target roll none) := by
  have hbranch : (!ctx.sniffRedirect || target.ip.isNone) = true := by
    rcases h with h | h <;> simp [h]
  rw [handleVlessVisionTcp, if_pos hbranch, ofCall_callDial, Option.getD_none, ite_self]
  rfl

/-- With it, the Vision handler goes on with the name. -/
theorem vision_of_name {payload : List UInt8} (h : ctx.sniffRedirect = true)
    (hip : target.ip ≠ none) :
    handleVlessVisionTcp ctx target roll payload =
      if payload = [] then .clientEof
      else .ofCall (callDial ctx target roll (nameIn ctx payload)) := by
  have hbranch : ¬ (!ctx.sniffRedirect || target.ip.isNone) = true := by
    simp [h, hip]
  rw [handleVlessVisionTcp, if_neg hbranch, ofCall_callDial]
  cases payload with
  | nil => rfl
  | cons b bs => rfl

/-- The plain handler goes on with the name wherever the target is an
address. -/
theorem standard_eq {s : ByteStream} {payload : List UInt8} (hread : (s.read 1024).1 = payload) :
    handleVlessStandardTcp ctx target roll true s =
      callDial ctx target roll (if target.ip = none then none else nameIn ctx payload) := by
  rw [handleVlessStandardTcp, sniffAndDial, sniffAsyncStream_fst, sniffedName, hread, nameIn]
  cases target.ip with
  | none => simp
  | some ip => simp

/-- A name and the host lead to the same call exactly if they are treated
alike. -/
theorem callDial_name_iff (h : ctx.sniffRedirect = false) (name : List Char) :
    callDial ctx target roll none = callDial ctx target roll (some name) ↔
      TreatedAlike ctx target roll name := by
  rw [TreatedAlike, ← firstMatch_eq_iff, ← matchOutbound_eq_firstMatch,
    ← matchOutbound_eq_firstMatch, callDial, callDial, h]
  simp only [Option.getD_none, Option.getD_some]
  cases ctx.audit.shouldBlock ctx.geo target.host target.ip target.port with
  | true =>
      cases ctx.audit.shouldBlock ctx.geo name target.ip target.port <;> simp
  | false =>
      cases ctx.audit.shouldBlock ctx.geo name target.ip target.port with
      | true => simp
      | false =>
          simp only [Bool.false_eq_true, if_false, Option.some.injEq, DialCall.mk.injEq, and_true,
            true_and, forall_const]
          exact eq_comm

theorem Outcome.ofCall_inj {c c' : Option DialCall} : ofCall c = ofCall c' ↔ c = c' := by
  cases c <;> cases c' <;> simp [ofCall]

/-- **Vision and plain TCP.**  For a first payload, the Vision handler blocks
or dials as the plain one does exactly under `VisionAlike`. -/
theorem vision_policy_exact (ctx : InboundContext env) (target : Target) (roll : Nat)
    (s : ByteStream) (payload : List UInt8) (hread : (s.read 1024).1 = payload) :
    handleVlessVisionTcp ctx target roll payload =
        .ofCall (handleVlessStandardTcp ctx target roll true s) ↔
      VisionAlike ctx target roll payload := by
  rw [standard_eq hread, VisionAlike]
  by_cases hip : target.ip = none
  · rw [if_pos hip, vision_of_host (.inr hip)]
    exact iff_of_true rfl (.inl hip)
  · rw [if_neg hip]
    cases hredirect : ctx.sniffRedirect with
    | true =>
        rw [vision_of_name hredirect hip]
        by_cases hempty : payload = []
        · -- the plain handler always blocks or dials
          rw [if_pos hempty]
          refine iff_of_false ?_ (by simp [hip, hempty])
          cases callDial ctx target roll (nameIn ctx payload) <;> simp [Outcome.ofCall]
        · rw [if_neg hempty]
          exact iff_of_true rfl (by simp [hempty])
    | false =>
        rw [vision_of_host (.inl hredirect), Outcome.ofCall_inj]
        simp only [hip, Bool.false_eq_true, false_and, false_or, true_and]
        cases nameIn ctx payload with
        | none => simp
        | some name =>
            rw [callDial_name_iff hredirect]
            simp

end

/-- A context that blocks bad.example and sniffs names, with the defaults of
the configuration. -/
def sniffingContext : InboundContext sampleMatching where
  nodeId := 1
  geo := sampleGeo
  audit := { blockingAudit with blockList := RuleItem.reload "domain:bad.example\n".toList }
  routes := RoutesConfig.default
  domainSniff := true
  sniffRedirect := false
  detectPacket := false

def plainTarget : Target := ⟨"5.6.7.8".toList, some (.v4 (.new 5 6 7 8)), 80⟩

theorem vision_policy_exact_good :
    ((ByteStream.single (requestFor "good.example") (by decide)).read 1024).1 =
        requestFor "good.example" ∧
      handleVlessVisionTcp sniffingContext plainTarget 0 (requestFor "good.example") =
        .ofCall (handleVlessStandardTcp sniffingContext plainTarget 0 true
          (.single (requestFor "good.example") (by decide))) := by
  have hread : ((ByteStream.single (requestFor "good.example") (by decide)).read 1024).1 =
      requestFor "good.example" := by decide +kernel
  refine ⟨hread, ?_⟩
  apply (vision_policy_exact sniffingContext plainTarget 0 _ _ hread).mpr
  refine .inr (.inr ⟨rfl, ?_⟩)
  have hname : nameIn sniffingContext (requestFor "good.example") = some "good.example".toList := by
    decide +kernel
  intro name hsniffed
  obtain rfl := Option.some.inj (hname.symm.trans hsniffed)
  refine ⟨by decide +kernel, fun _ => ?_⟩
  exact trivial

/-- A request for bad.example that is sent to 5.6.7.8: the plain handler blocks
it, the Vision handler dials. -/
theorem vision_skips_the_name :
    (requestFor "bad.example").length ≤ 1024 ∧
      ((ByteStream.single (requestFor "bad.example") (by decide)).read 1024).1 =
        requestFor "bad.example" ∧
      handleVlessVisionTcp sniffingContext plainTarget 0 (requestFor "bad.example") ≠
        .ofCall (handleVlessStandardTcp sniffingContext plainTarget 0 true
          (.single (requestFor "bad.example") (by decide))) := by
  have hread : ((ByteStream.single (requestFor "bad.example") (by decide)).read 1024).1 =
      requestFor "bad.example" := by decide +kernel
  refine ⟨by decide +kernel, hread, ?_⟩
  have hplain : handleVlessStandardTcp sniffingContext plainTarget 0 true
      (.single (requestFor "bad.example") (by decide)) = none := by
    have hname : (if plainTarget.ip = none then none
        else nameIn sniffingContext (requestFor "bad.example")) = some "bad.example".toList := by
      decide +kernel
    rw [standard_eq hread, hname, callDial]
    exact if_pos (by decide +kernel)
  rw [hplain, vision_of_host (.inl rfl), callDial, if_neg (by decide +kernel)]
  exact nofun

end Vless

end Elise
