/-
Elise/Router/Outbound.lean

The dialer (src/proxy/router/outbound.rs): where `dial` opens a connection to,
for each type of outbound.

The dialer holds the audit too: before it connects to a host it asks about the
name, with the address if the name is one, and then about each address that
the name stands for.  `resolve` is the DNS.  What the network makes of the
connection is left out: `dial` returns what it connects to.
-/
import Elise.Security.Audit
import Elise.Router.Routes

namespace Elise

open Net

inductive DialErrorKind where
  | permissionDenied
  | notFound
  | unsupported
  | resolver
  deriving DecidableEq

structure DialError where
  kind : DialErrorKind
  message : String
  deriving DecidableEq

/-- What a connection is opened to: one of these addresses, the first that
answers, or a proxy that is asked for an address. -/
inductive Connection where
  | direct (addrs : List SocketAddr)
  | socks (proxyHost : List Char) (proxyPort : UInt16) (target : SocketAddr)
  | http (proxyHost : List Char) (proxyPort : UInt16) (targetIp : IpAddr) (targetPort : UInt16)

/-- The DNS. -/
abbrev Resolver := List Char → UInt16 → Except DialError (List SocketAddr)

namespace OutboundDialer

variable {env : Matching} (geo : GeoEngine env) (audit : AuditController env) (resolve : Resolver)

def resolveTarget (host : List Char) (port : UInt16) : Except DialError (List SocketAddr) :=
  if audit.shouldBlock geo host (env.parseIp host) port then
    .error ⟨.permissionDenied, "Target blocked before DNS"⟩
  else
    match resolve host port with
    | .error e => .error e
    | .ok addresses =>
        if addresses.isEmpty then .error ⟨.notFound, "No target addresses"⟩
        else
          let addresses := addresses.filter fun address =>
            !audit.shouldBlock geo host (some address.ip) port
          if addresses.isEmpty then
            .error ⟨.permissionDenied, "Resolved target blocked by audit"⟩
          else .ok addresses

/-- `resolve_target(..)?[0]`, handed to `connect`. -/
def viaProxy (host : List Char) (port : UInt16) (connect : SocketAddr → Connection) :
    Except DialError Connection :=
  match resolveTarget geo audit resolve host port with
  | .error e => .error e
  | .ok [] => .error ⟨.notFound, "No target addresses"⟩
  | .ok (target :: _) => .ok (connect target)

def dialDirect (host : List Char) (port : UInt16) : Except DialError Connection :=
  match resolveTarget geo audit resolve host port with
  | .error e => .error e
  | .ok addrs => .ok (.direct addrs)

/-- The port of a redirection; 0 counts as none. -/
def redirectPort (outbound : OutboundConfig) (targetPort : UInt16) : UInt16 :=
  match outbound.port with
  | some p => if 0 < p then p else targetPort
  | none => targetPort

def dial (outbound : OutboundConfig) (targetHost : List Char) (targetPort : UInt16) :
    Except DialError Connection :=
  let ntype := outbound.normalizedType env
  if ntype = "block".toList then
    .error ⟨.permissionDenied, "Blocked by outbound routing rule"⟩
  else if ntype = "redirect".toList then
    dialDirect geo audit resolve (outbound.targetHost.getD targetHost)
      (redirectPort outbound targetPort)
  else if ntype = "socks".toList then
    viaProxy geo audit resolve targetHost targetPort fun target =>
      .socks (outbound.targetHost.getD "127.0.0.1".toList) (outbound.port.getD 1080) target
  else if ntype = "http".toList then
    viaProxy geo audit resolve targetHost targetPort fun target =>
      .http (outbound.targetHost.getD "127.0.0.1".toList) (outbound.port.getD 8080) target.ip
        targetPort
  else if ntype = "direct".toList then dialDirect geo audit resolve targetHost targetPort
  else .error ⟨.unsupported, "Unsupported TCP outbound"⟩

/-! ### When a connection is opened -/

/-- The audit lets the name pass and one of the addresses that it stands
for. -/
def Reachable (host : List Char) (port : UInt16) : Prop :=
  audit.shouldBlock geo host (env.parseIp host) port = false ∧
    ∃ addresses, resolve host port = .ok addresses ∧
      ∃ address ∈ addresses, audit.shouldBlock geo host (some address.ip) port = false

theorem resolveTarget_isOk_iff (host : List Char) (port : UInt16) :
    (∃ addrs, resolveTarget geo audit resolve host port = .ok addrs) ↔
      Reachable geo audit resolve host port := by
  rw [resolveTarget, Reachable]
  cases hname : audit.shouldBlock geo host (env.parseIp host) port with
  | true => simp
  | false =>
      cases hresolve : resolve host port with
      | error e => simp
      | ok addresses =>
          have hsome : (∃ address ∈ addresses,
              audit.shouldBlock geo host (some address.ip) port = false) ↔
              (addresses.filter fun address =>
                !audit.shouldBlock geo host (some address.ip) port) ≠ [] := by
            simp [List.filter_eq_nil_iff]
          simp only [Bool.false_eq_true, if_false, Except.ok.injEq, exists_eq_left', true_and,
            hsome]
          cases addresses with
          | nil => simp
          | cons a as =>
              by_cases hnil : ((a :: as).filter fun address =>
                  !audit.shouldBlock geo host (some address.ip) port) = []
              · simp [hnil]
              · simp [hnil]

theorem resolveTarget_ne_nil {host : List Char} {port : UInt16} {addrs : List SocketAddr}
    (h : resolveTarget geo audit resolve host port = .ok addrs) : addrs ≠ [] := by
  rw [resolveTarget] at h
  split_ifs at h
  split at h
  · cases h
  · dsimp only at h
    split_ifs at h with hnil hblocked
    obtain rfl := Except.ok.inj h
    exact fun hempty => hblocked (List.isEmpty_iff.mpr hempty)

theorem viaProxy_isOk_iff (host : List Char) (port : UInt16) (connect : SocketAddr → Connection) :
    (∃ c, viaProxy geo audit resolve host port connect = .ok c) ↔
      Reachable geo audit resolve host port := by
  rw [← resolveTarget_isOk_iff, viaProxy]
  cases hresolve : resolveTarget geo audit resolve host port with
  | error e => simp
  | ok addrs =>
      obtain ⟨a, as, rfl⟩ :=
        List.exists_cons_of_ne_nil (resolveTarget_ne_nil geo audit resolve hresolve)
      simp

theorem dialDirect_isOk_iff (host : List Char) (port : UInt16) :
    (∃ c, dialDirect geo audit resolve host port = .ok c) ↔
      Reachable geo audit resolve host port := by
  rw [← resolveTarget_isOk_iff, dialDirect]
  cases resolveTarget geo audit resolve host port <;> simp

/-- What an outbound of each type needs to be dialed for a host. -/
def Dialable (outbound : OutboundConfig) (host : List Char) (port : UInt16) : Prop :=
  (outbound.normalizedType env = "redirect".toList ∧
      Reachable geo audit resolve (outbound.targetHost.getD host) (redirectPort outbound port)) ∨
    (outbound.normalizedType env ∈ ["socks".toList, "http".toList, "direct".toList] ∧
      Reachable geo audit resolve host port)

/-- **When `dial` opens a connection.** -/
theorem dial_isOk_iff (outbound : OutboundConfig) (host : List Char) (port : UInt16) :
    (∃ c, dial geo audit resolve outbound host port = .ok c) ↔
      Dialable geo audit resolve outbound host port := by
  have hdiff : "redirect".toList ∉ ["socks".toList, "http".toList, "direct".toList] := by decide
  rw [dial, Dialable]
  generalize outbound.normalizedType env = ntype
  split_ifs with hblock hredirect hsocks hhttp hdirect
  · subst hblock
    refine iff_of_false (by simp) ?_
    rintro (⟨hne, -⟩ | ⟨hmem, -⟩)
    · exact absurd hne (by decide)
    · exact absurd hmem (by decide)
  · subst hredirect
    rw [dialDirect_isOk_iff]
    simp only [true_and, hdiff, false_and, or_false]
  · have hmem : ntype ∈ ["socks".toList, "http".toList, "direct".toList] := by simp [hsocks]
    rw [viaProxy_isOk_iff]
    simp only [hredirect, hmem, false_and, true_and, false_or]
  · have hmem : ntype ∈ ["socks".toList, "http".toList, "direct".toList] := by simp [hhttp]
    rw [viaProxy_isOk_iff]
    simp only [hredirect, hmem, false_and, true_and, false_or]
  · have hmem : ntype ∈ ["socks".toList, "http".toList, "direct".toList] := by simp [hdirect]
    rw [dialDirect_isOk_iff]
    simp only [hredirect, hmem, false_and, true_and, false_or]
  · have hmem : ntype ∉ ["socks".toList, "http".toList, "direct".toList] := by
      simp only [List.mem_cons, List.not_mem_nil, or_false]
      tauto
    refine iff_of_false (by simp) ?_
    simp only [hredirect, hmem, false_and, or_false, not_false_eq_true]

end OutboundDialer

end Elise
