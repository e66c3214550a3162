/-
Elise/Shadowsocks/Exact.lean

The replay window is exact (`ReplayWindow::accept` in
src/protocol/shadowsocks/udp.rs).

`Tells` relates a window to the packets it has accepted: the highest of them, and a bit for
each of the 1024 numbers below that says whether the number is one of them.  A packet keeps
this up, whatever it is (`Tells.take`), so the answer is what the accepted packets say.
-/
import Elise.Shadowsocks.Replay

namespace Elise

namespace Shadowsocks

namespace ReplayWindow

/-- A packet comes in; beside the window go the packets that it has accepted. -/
def take (c : ReplayWindow × List UInt64) (e : UInt64 × Nat) : ReplayWindow × List UInt64 :=
  ((c.1.accept e.1 e.2).1, if (c.1.accept e.1 e.2).2 then c.2 ++ [e.1] else c.2)

/-- The packets of a sequence come in, each at its time. -/
def takeAll (c : ReplayWindow × List UInt64) (packets : List (UInt64 × Nat)) :
    ReplayWindow × List UInt64 := packets.foldl take c

/-- The highest packet of a list. -/
def Highest (accepted : List UInt64) (h : UInt64) : Prop :=
  h ∈ accepted ∧ ∀ q ∈ accepted, q.toNat ≤ h.toNat

/-- What the window says of the packets that it has accepted. -/
structure Tells (window : ReplayWindow) (accepted : List UInt64) : Prop where
  sized : window.Sized
  nodup : accepted.Nodup
  fresh : window.initialized = false →
    accepted = [] ∧ ∀ d < 1024, Bitmap.bit window.bitmap d = false
  highest : window.initialized = true → Highest accepted window.highest
  bit : window.initialized = true → ∀ d < 1024,
    (Bitmap.bit window.bitmap d = true ↔ ∃ q ∈ accepted, q.toNat + d = window.highest.toNat)

variable {window : ReplayWindow} {accepted : List UInt64} {packet : UInt64} {now : Nat}

theorem tells_new (response now : Nat) : (new response now).Tells [] where
  sized := sized_new response now
  nodup := List.nodup_nil
  fresh _ := by
    refine ⟨rfl, ?_⟩
    intro d _
    show Bitmap.bit (List.replicate 16 0#64) d = false
    rw [Bitmap.bit, Bitmap.word, List.getElem?_replicate]
    split <;> simp
  highest h := nomatch h
  bit h := nomatch h

/-- The packet is within the window of what was accepted, and new. -/
def Acceptable (accepted : List UInt64) (packet : UInt64) : Prop :=
  packet ∉ accepted ∧
    (accepted = [] ∨ ∃ h, Highest accepted h ∧ (h.toNat : Int) - 1024 < (packet.toNat : Int))

theorem Highest.unique {h h' : UInt64} (hh : Highest accepted h) (hh' : Highest accepted h') : h = h' :=
  UInt64.toNat_inj.mp (Nat.le_antisymm (hh'.2 h hh.1) (hh.2 h' hh'.1))

/-- A packet that is not ahead is let through when it is near and not marked. -/
theorem accept_behind (packet : UInt64) (now : Nat) (hinit : window.initialized = true)
    (hle : packet.toNat ≤ window.highest.toNat) :
    (window.accept packet now).2 =
      (decide (window.highest.toNat - packet.toNat < 1024) &&
        !Bitmap.bit window.bitmap (window.highest.toNat - packet.toNat)) := by
  have hdiff : (window.highest - packet).toNat = window.highest.toNat - packet.toNat :=
    UInt64.toNat_sub_of_le _ _ (UInt64.le_iff_toNat_le.mpr hle)
  have hbehind : ¬ window.highest < packet := by
    rw [UInt64.lt_iff_toNat_lt]
    omega
  rw [accept]
  simp only [hinit, Bool.not_true, Bool.false_eq_true, if_false]
  rw [if_neg hbehind, hdiff, Bitmap.test_eq_bit]
  by_cases hfar : 1024 ≤ window.highest.toNat - packet.toNat
  · rw [if_pos hfar, decide_eq_false (Nat.not_lt.mpr hfar), Bool.false_and]
  · rw [if_neg hfar, decide_eq_true (Nat.lt_of_not_le hfar), Bool.true_and]
    cases Bitmap.bit window.bitmap (window.highest.toNat - packet.toNat) <;> rfl

/-- The bits after the first packet. -/
theorem bit_first (h : window.Sized)
    (hclear : ∀ d < 1024, Bitmap.bit window.bitmap d = false) {d : Nat} (hd : d < 1024) :
    Bitmap.bit (window.bitmap.set 0 1#64) d = decide (d = 0) := by
  rw [Sized] at h
  have hword := Bitmap.word_set 1#64 (show 0 < window.bitmap.length by omega) (d / 64)
  rcases Nat.lt_or_ge d 64 with hlow | hhigh
  · have hzero : d / 64 = 0 := Nat.div_eq_of_lt hlow
    have hmod : d % 64 = d := Nat.mod_eq_of_lt hlow
    rw [Bitmap.bit, hword, hzero, if_pos rfl, hmod]
    simp only [BitVec.getLsbD_one]
    simp
  · have hne : ¬ d / 64 = 0 := by omega
    have hd0 : ¬ d = 0 := by omega
    rw [Bitmap.bit, hword, if_neg hne, decide_eq_false hd0]
    exact hclear d hd

/-- A packet that is not ahead of all others. -/
theorem Tells.behind_iff (ht : window.Tells accepted) (packet : UInt64) (now : Nat)
    (hinit : window.initialized = true) (hle : packet.toNat ≤ window.highest.toNat) :
    (window.accept packet now).2 = true ↔ Acceptable accepted packet := by
  have hhigh := ht.highest hinit
  rw [accept_behind packet now hinit hle, Bool.and_eq_true, Bool.not_eq_true', decide_eq_true_eq]
  constructor
  · rintro ⟨hnear, hfree⟩
    refine ⟨?_, .inr ⟨window.highest, hhigh, by omega⟩⟩
    intro hmem
    have hbit := (ht.bit hinit _ hnear).mpr ⟨packet, hmem, by omega⟩
    rw [hfree] at hbit
    cases hbit
  · rintro ⟨hnew, hnone | ⟨h, hh, hnear⟩⟩
    · have hmem := hhigh.1
      rw [hnone] at hmem
      cases hmem
    · obtain rfl := hh.unique hhigh
      have hd : window.highest.toNat - packet.toNat < 1024 := by omega
      refine ⟨hd, ?_⟩
      apply Bool.eq_false_iff.mpr
      intro hbit
      obtain ⟨q, hq, heq⟩ := (ht.bit hinit _ hd).mp hbit
      have hsame : q = packet := UInt64.toNat_inj.mp (by omega)
      exact hnew (hsame ▸ hq)

/-- **A packet is accepted as the accepted packets say.** -/
theorem Tells.accept_iff (ht : window.Tells accepted) (packet : UInt64) (now : Nat) :
    (window.accept packet now).2 = true ↔ Acceptable accepted packet := by
  rcases accept_cases window packet now with ⟨hnew, heq⟩ | ⟨hinit, hlt, heq⟩ | ⟨hinit, hle, -⟩ |
    ⟨hinit, hle, -, -, -⟩
  · -- the first packet
    obtain ⟨rfl, -⟩ := ht.fresh hnew
    rw [heq]
    exact iff_of_true rfl ⟨List.not_mem_nil, .inl rfl⟩
  · -- ahead of all others
    have hhigh := ht.highest hinit
    rw [heq]
    refine iff_of_true rfl ⟨?_, .inr ⟨window.highest, hhigh, by omega⟩⟩
    intro hmem
    have := hhigh.2 packet hmem
    omega
  all_goals exact ht.behind_iff packet now hinit hle

theorem take_of_accept (h : (window.accept packet now).2 = true) :
    take (window, accepted) (packet, now) = ((window.accept packet now).1, accepted ++ [packet]) := by
  simp [take, h]

theorem take_of_refuse (h : (window.accept packet now).2 = false) :
    take (window, accepted) (packet, now) = ((window.accept packet now).1, accepted) := by
  simp [take, h]

theorem nodup_append_new (h : accepted.Nodup) (hnew : packet ∉ accepted) :
    (accepted ++ [packet]).Nodup := by
  apply List.nodup_append.mpr
  refine ⟨h, List.nodup_singleton _, ?_⟩
  rintro q hq p hp rfl
  rw [List.mem_singleton] at hp
  exact hnew (hp ▸ hq)

/-- A packet that is accepted. -/
theorem Tells.after_accept (ht : window.Tells accepted)
    (hok : (window.accept packet now).2 = true) :
    (window.accept packet now).1.Tells (accepted ++ [packet]) := by
  have hnew : packet ∉ accepted := ((ht.accept_iff packet now).mp hok).1
  have hnodup := nodup_append_new ht.nodup hnew
  have hsized : (window.accept packet now).1.Sized := sized_accept ht.sized
  rcases accept_cases window packet now with ⟨hfirst, heq⟩ | ⟨hinit, hlt, heq⟩ |
    ⟨hinit, hle, heq⟩ | ⟨hinit, hle, hnear, -, heq⟩
  · -- the first packet
    obtain ⟨rfl, hclear⟩ := ht.fresh hfirst
    rw [heq] at hsized ⊢
    refine ⟨hsized, hnodup, nofun, ?_, ?_⟩
    · intro _
      exact ⟨List.mem_singleton_self packet, by simp⟩
    · intro _ d hd
      simp only [List.nil_append, List.mem_singleton, exists_eq_left]
      rw [bit_first ht.sized hclear hd, decide_eq_true_eq]
      omega
  · -- ahead of all others: everything moves up
    have hhigh := ht.highest hinit
    rw [heq] at hsized ⊢
    refine ⟨hsized, hnodup, ?_, ?_, ?_⟩
    · intro hno
      rw [show window.initialized = false from hno] at hinit
      cases hinit
    · intro _
      refine ⟨List.mem_append_right _ (List.mem_singleton_self packet), ?_⟩
      intro q hq
      rcases List.mem_append.mp hq with hq | hq
      · exact (hhigh.2 q hq).trans hlt.le
      · rw [List.mem_singleton.mp hq]
    · intro _ d hd
      simp only [List.mem_append, List.mem_singleton]
      rw [bit_ahead ht.sized hd, Bool.or_eq_true, Bool.and_eq_true, decide_eq_true_eq,
        decide_eq_true_eq]
      constructor
      · rintro (rfl | ⟨hup, hbit⟩)
        · exact ⟨packet, .inr rfl, rfl⟩
        · obtain ⟨q, hq, hplace⟩ := (ht.bit hinit _ (by omega)).mp hbit
          exact ⟨q, .inl hq, by omega⟩
      · rintro ⟨q, hq | rfl, hplace⟩
        · have hle := hhigh.2 q hq
          refine .inr ⟨by omega, ?_⟩
          exact (ht.bit hinit _ (by omega)).mpr ⟨q, hq, by omega⟩
        · exact .inl (by omega)
  · rw [heq] at hok
    cases hok
  · -- between them: one more bit
    have hhigh := ht.highest hinit
    rw [heq] at hsized ⊢
    refine ⟨hsized, hnodup, ?_, ?_, ?_⟩
    · intro hno
      rw [show window.initialized = false from hno] at hinit
      cases hinit
    · intro _
      refine ⟨List.mem_append_left _ hhigh.1, ?_⟩
      intro q hq
      rcases List.mem_append.mp hq with hq | hq
      · exact hhigh.2 q hq
      · rw [List.mem_singleton.mp hq]
        exact hle
    · intro _ d hd
      simp only [List.mem_append, List.mem_singleton]
      rw [bit_behind ht.sized hnear, Bool.or_eq_true, decide_eq_true_eq, ht.bit hinit d hd]
      constructor
      · rintro (rfl | ⟨q, hq, hplace⟩)
        · exact ⟨packet, .inr rfl, by omega⟩
        · exact ⟨q, .inl hq, hplace⟩
      · rintro ⟨q, hq | rfl, hplace⟩
        · exact .inr ⟨q, hq, hplace⟩
        · exact .inl (by omega)

/-- A packet that is refused. -/
theorem Tells.after_refuse (ht : window.Tells accepted)
    (hno : (window.accept packet now).2 = false) :
    (window.accept packet now).1.Tells accepted := by
  rcases accept_cases window packet now with ⟨-, heq⟩ | ⟨-, -, heq⟩ | ⟨-, -, heq⟩ |
    ⟨-, -, -, -, heq⟩
  · rw [heq] at hno
    cases hno
  · rw [heq] at hno
    cases hno
  · rw [heq]
    exact ⟨ht.sized, ht.nodup, ht.fresh, ht.highest, ht.bit⟩
  · rw [heq] at hno
    cases hno

/-- **A packet comes in**, and what the window says stays true. -/
theorem Tells.step (ht : window.Tells accepted) (e : UInt64 × Nat) :
    (take (window, accepted) e).1.Tells (take (window, accepted) e).2 := by
  obtain ⟨packet, now⟩ := e
  rcases hanswer : (window.accept packet now).2 with - | -
  · rw [take_of_refuse hanswer]
    exact ht.after_refuse hanswer
  · rw [take_of_accept hanswer]
    exact ht.after_accept hanswer

/-- **A sequence of packets comes in.** -/
theorem Tells.run (packets : List (UInt64 × Nat)) {c : ReplayWindow × List UInt64}
    (ht : c.1.Tells c.2) : (takeAll c packets).1.Tells (takeAll c packets).2 := by
  induction packets generalizing c with
  | nil => exact ht
  | cons e rest ih =>
      show (takeAll (take c e) rest).1.Tells (takeAll (take c e) rest).2
      apply ih
      exact ht.step e

/-- What was accepted stays accepted. -/
theorem mem_takeAll (packets : List (UInt64 × Nat)) {c : ReplayWindow × List UInt64}
    (h : packet ∈ c.2) : packet ∈ (takeAll c packets).2 := by
  induction packets generalizing c with
  | nil => exact h
  | cons e rest ih =>
      apply ih (c := take c e)
      show packet ∈ if (c.1.accept e.1 e.2).2 then c.2 ++ [e.1] else c.2
      split
      · exact List.mem_append_left _ h
      · exact h

/-- The first packet is accepted, whatever it is. -/
theorem accepted_eq_nil_iff (response start : Nat) (before : List (UInt64 × Nat)) :
    (takeAll (new response start, []) before).2 = [] ↔ before = [] := by
  constructor
  · intro hnone
    cases before with
    | nil => rfl
    | cons e rest =>
        have hfirst : e.1 ∈ (take (new response start, []) e).2 := List.mem_singleton_self e.1
        have hmem : e.1 ∈ (takeAll (new response start, []) (e :: rest)).2 :=
          mem_takeAll rest hfirst
        rw [hnone] at hmem
        cases hmem
  · rintro rfl
    rfl

/-- **The window is exact**: after any packets, the next one is accepted if and only if it was
not accepted before and is the first one or within 1024 of the highest that was accepted. -/
theorem accept_exact (response start : Nat) (before : List (UInt64 × Nat)) (packet : UInt64)
    (now : Nat) :
    let c := takeAll (new response start, []) before
    ((c.1.accept packet now).2 = true ↔
      packet ∉ c.2 ∧ (before = [] ∨
        ∃ h, Highest c.2 h ∧ (h.toNat : Int) - 1024 < (packet.toNat : Int))) ∧
      c.2.Nodup := by
  have ht : (takeAll (new response start, []) before).1.Tells
      (takeAll (new response start, []) before).2 := (tells_new response start).run before
  intro c
  refine ⟨?_, ht.nodup⟩
  rw [← accepted_eq_nil_iff response start before]
  exact ht.accept_iff packet now

end ReplayWindow

end Shadowsocks

end Elise
