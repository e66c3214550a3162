/-
Elise/Vless/MuxRuns.lean

When the sessions of a multiplexed connection half-close cleanly and are kept
apart.

A task sends its END frame when one of its two directions is complete, and what
the other one had to do is dropped.  So a session that the client has ended loses
what its target still sends, unless the download happens to be first; and a
session id that is opened again while the task of the earlier session is there
gets the frames of both.  In every run in which neither happens, all that comes
from a target is queued before the END frame, and no frame of an earlier session
follows the opening of a later one.
-/
import Elise.Vless.Mux

namespace Elise

namespace Vless

namespace Mux

/-! ### What is to hold -/

/-- The bytes that a frame carries. -/
def carried : Entry → Nat → List UInt8
  | .queued (some h) (.data _ bytes), g => if h = g then bytes else []
  | _, _ => []

/-- The bytes that a task has queued. -/
def dataOf (log : List Entry) (g : Nat) : List UInt8 := log.flatMap (carried · g)

/-- **Clean half-close**: what the target of a stream session sends is queued
before the END frame, if the client has ended the session. -/
def HalfCloses (s : State) : Prop :=
  ∀ g t before after, s.tasks[g]? = some t → t.udp = false → t.clientEnded = true →
    s.log = before ++ .queued (some g) (.fin t.sessionId) :: after → dataOf before g = t.sent

/-- **Isolation**: behind the opening of a session there is no frame of an
earlier session with its id. -/
def Isolated (log : List Entry) : Prop :=
  ∀ before after g g' sessionId frame, log = before ++ .opened g' sessionId :: after →
    .queued (some g) frame ∈ after → frame.sessionId = sessionId → g' ≤ g

/-- Nothing more comes from the target, and all that came is queued. -/
def Task.Drained (t : Task) : Prop :=
  (t.closed = true ∨ t.reached = false) ∧ t.unread = [] ∧ t.pending = none

/-- A stream session does not end for its upload before its target is drained,
and no id is opened while the task of an earlier session with it is there. -/
def Orderly (env : Env) (s : State) : Event → Prop
  | .client f => 8 ≤ f.metaBuf.length → f.status = 1 → State.admitted env f = true →
      ∀ t ∈ s.tasks, t.sessionId = f.sessionId → t.stage = .ended
  | .task g .upEnd => ∀ t, s.tasks[g]? = some t → t.udp = false → t.Drained
  | .task g (.wrote false) => ∀ t, s.tasks[g]? = some t → t.udp = false → t.Drained
  | _ => True

instance (t : Task) : Decidable t.Drained := inferInstanceAs (Decidable (_ ∧ _ ∧ _))

instance (env : Env) (s : State) : (e : Event) → Decidable (Orderly env s e)
  | .client f => inferInstanceAs (Decidable (8 ≤ f.metaBuf.length → f.status = 1 →
      State.admitted env f = true → ∀ t ∈ s.tasks, t.sessionId = f.sessionId → t.stage = .ended))
  | .task g .upEnd =>
      inferInstanceAs (Decidable (∀ t ∈ s.tasks[g]?, t.udp = false → t.Drained))
  | .task g (.wrote false) =>
      inferInstanceAs (Decidable (∀ t ∈ s.tasks[g]?, t.udp = false → t.Drained))
  | .task _ (.wrote true) | .task _ (.dialed _) | .task _ (.upload _) | .task _ .upStop
  | .task _ (.download _) | .task _ .forward | .task _ .downEnd | .task _ .finish
  | .task _ (.targetSends _) | .task _ .targetCloses | .task _ .targetResets | .write | .leave =>
      isTrue trivial

/-! ### Logs -/

section

variable {log before after : List Entry} {x y : Entry} {g : Nat}

theorem concat_cases (h : log ++ [x] = before ++ y :: after) :
    (before = log ∧ x = y ∧ after = []) ∨ ∃ rest, after = rest ++ [x] ∧ log = before ++ y :: rest := by
  rcases List.eq_nil_or_concat after with rfl | ⟨rest, last, rfl⟩
  · obtain ⟨hlog, hlast⟩ := List.append_inj' h rfl
    exact .inl ⟨hlog.symm, List.singleton_inj.mp hlast, rfl⟩
  · have hsplit : log ++ [x] = (before ++ y :: rest) ++ [last] := by
      rw [h, List.concat_eq_append]
      simp
    obtain ⟨hlog, hlast⟩ := List.append_inj' hsplit rfl
    obtain rfl := List.singleton_inj.mp hlast
    exact .inr ⟨rest, List.concat_eq_append, hlog⟩

theorem dataOf_append (xs ys : List Entry) (g : Nat) : dataOf (xs ++ ys) g = dataOf xs g ++ dataOf ys g :=
  List.flatMap_append

theorem dataOf_concat (log : List Entry) (x : Entry) (g : Nat) :
    dataOf (log ++ [x]) g = dataOf log g ++ carried x g := by
  rw [dataOf_append]
  simp [dataOf]

/-- A task that has queued nothing. -/
theorem dataOf_eq_nil (h : ∀ frame, .queued (some g) frame ∉ log) : dataOf log g = [] := by
  rw [dataOf, List.flatMap_eq_nil_iff]
  intro x hx
  match x, hx with
  | .opened _ _, _ => rfl
  | .queued none _, _ => rfl
  | .queued (some _) (.fin _), _ => rfl
  | .queued (some _) (.keepAlive _), _ => rfl
  | .queued (some k) (.data id bytes), hx =>
      refine if_neg ?_
      rintro rfl
      exact h _ hx

end

/-- The END frame of a task is queued. -/
def Ended (log : List Entry) (g : Nat) : Prop := ∃ sessionId, .queued (some g) (.fin sessionId) ∈ log

/-! ### One task -/

/-- How a task fits what it has queued. -/
structure Fits (connected : Bool) (data : List UInt8) (fin : Prop) (t : Task) : Prop where
  balance : t.sent = data ++ (t.pending.getD [] ++ t.unread.flatten)
  dialing : t.stage = .dialing → t.reached = false
  unreached : t.reached = false → t.unread = [] ∧ t.pending = none
  atEnd : fin → t.stage = .ended
  drained : fin ∨ connected = true ∧ t.stage = .ending → t.udp = false → t.Drained

/-- The bytes of a frame. -/
def bytesOf : Option MuxFrame → List UInt8
  | some (.data _ bytes) => bytes
  | _ => []

def isFin : Option MuxFrame → Prop
  | some (.fin _) => True
  | _ => False

section

variable {connected registered : Bool} {data : List UInt8} {fin : Prop} {t t' : Task}
  {frame : Option MuxFrame} {e : TaskEvent}

/-- What a step of a task leaves as it is. -/
structure Keeps (t t' : Task) (frame : Option MuxFrame) : Prop where
  sessionId : t'.sessionId = t.sessionId
  udp : t'.udp = t.udp
  ended : t.stage = .ended → t'.stage = .ended
  own : ∀ f ∈ frame, f.sessionId = t.sessionId ∧ t.stage ≠ .ended

theorem flatten_behind (n : Nat) (unread : List (List UInt8)) :
    unread.flatten.take n ++ (Task.behind n unread).flatten = unread.flatten := by
  rw [Task.behind]
  split
  · rename_i hnil
    rw [List.isEmpty_iff] at hnil
    conv_rhs => rw [← List.take_append_drop n unread.flatten, hnil]
    rfl
  · rw [List.flatten_singleton, List.take_append_drop]

/-- What was read and what is left are what had come. -/
theorem read_eq_some {n : Nat} {bytes : List UInt8} {rest : List (List UInt8)}
    (h : t.read n = some (bytes, rest)) : t.unread.flatten = bytes ++ rest.flatten ∧ t.unread ≠ [] := by
  rw [Task.read] at h
  split at h
  · split at h
    · cases h
    · rename_i datagram more hunread
      split at h
      · cases h
      · obtain ⟨rfl, rfl⟩ := Prod.mk.inj (Option.some.inj h)
        rw [hunread]
        exact ⟨List.flatten_cons, List.cons_ne_nil _ _⟩
  · dsimp only at h
    split at h
    · cases h
    · rename_i hne
      obtain ⟨rfl, rfl⟩ := Prod.mk.inj (Option.some.inj h)
      refine ⟨(flatten_behind _ _).symm, ?_⟩
      intro hnil
      rw [hnil] at hne
      simp at hne

/-- A task that is not over has not queued its END frame. -/
theorem Fits.not_fin (h : Fits connected data fin t) (hstage : t.stage ≠ .ended) : ¬ fin :=
  fun hfin => hstage (h.atEnd hfin)

/-- **Every step of a task**: what it queues is the next of what has come from its
target, and an END frame comes last. -/
theorem Fits.act (h : Fits connected data fin t)
    (horderly : e = .upEnd ∨ e = .wrote false → t.udp = false → t.Drained)
    (hact : t.act connected registered e = some (t', frame)) :
    Fits connected (data ++ bytesOf frame) (fin ∨ isFin frame) t' ∧ Keeps t t' frame := by
  -- a step that queues nothing
  have hquiet : ∀ {t' : Task}, Fits connected data fin t' →
      Fits connected (data ++ bytesOf none) (fin ∨ isFin none) t' := by
    intro t' h'
    show Fits connected (data ++ []) (fin ∨ False) t'
    rw [List.append_nil, or_false]
    exact h'
  -- how a step reads its result
  have hsome : ∀ {u : Task} {f : Option MuxFrame}, some (u, f) = some (t', frame) → u = t' ∧ f = frame :=
    fun heq => Prod.mk.inj (Option.some.inj heq)
  cases e with
  | dialed ok =>
      simp only [Task.act] at hact
      split at hact
      · rename_i hstage
        have hfin := h.not_fin (by rw [hstage]; decide)
        obtain ⟨hunread, hpending⟩ := h.unreached (h.dialing hstage)
        split at hact
        · obtain ⟨rfl, rfl⟩ := hsome hact
          refine ⟨hquiet ⟨h.balance, ?_, nofun, fun hend => absurd hend hfin, ?_⟩,
            ⟨rfl, rfl, ?_, nofun⟩⟩
          · intro hdialing
            dsimp only at hdialing
            split at hdialing <;> cases hdialing
          · rintro (hend | ⟨-, hending⟩)
            · exact absurd hend hfin
            · dsimp only at hending
              split at hending <;> cases hending
          · intro hended
            rw [hstage] at hended
            cases hended
        · obtain ⟨rfl, rfl⟩ := hsome hact
          refine ⟨hquiet ⟨h.balance, nofun, h.unreached, fun hend => absurd hend hfin, ?_⟩,
            ⟨rfl, rfl, ?_, nofun⟩⟩
          · exact fun _ _ => ⟨.inr (h.dialing hstage), hunread, hpending⟩
          · intro hended
            rw [hstage] at hended
            cases hended
      · cases hact
  | wrote ok =>
      simp only [Task.act] at hact
      split at hact
      · rename_i hstage
        have hfin := h.not_fin (by rw [hstage]; decide)
        obtain ⟨rfl, rfl⟩ := hsome hact
        refine ⟨hquiet ⟨h.balance, ?_, h.unreached, fun hend => absurd hend hfin, ?_⟩,
          ⟨rfl, rfl, ?_, nofun⟩⟩
        · intro hdialing
          dsimp only at hdialing
          split at hdialing <;> cases hdialing
        · rintro (hend | ⟨-, hending⟩) hudp
          · exact absurd hend hfin
          · dsimp only at hending hudp
            cases ok with
            | false => exact horderly (.inr rfl) hudp
            | true => cases hending
        · intro hended
          rw [hstage] at hended
          cases hended
      · cases hact
  | upload ok =>
      simp only [Task.act] at hact
      split at hact
      · cases hact
      · split at hact
        · rename_i hstage
          obtain ⟨rfl, rfl⟩ := hsome hact
          refine ⟨hquiet ⟨h.balance, h.dialing, h.unreached, h.atEnd, h.drained⟩, ⟨rfl, rfl, id, nofun⟩⟩
        · cases hact
  | upStop =>
      simp only [Task.act] at hact
      split at hact
      · obtain ⟨rfl, rfl⟩ := hsome hact
        exact ⟨hquiet ⟨h.balance, h.dialing, h.unreached, h.atEnd, h.drained⟩, ⟨rfl, rfl, id, nofun⟩⟩
      · cases hact
  | upEnd =>
      simp only [Task.act] at hact
      split at hact
      · rename_i hstage
        have hfin := h.not_fin (by rw [hstage.1]; decide)
        obtain ⟨rfl, rfl⟩ := hsome hact
        refine ⟨hquiet ⟨h.balance, nofun, h.unreached, fun hend => absurd hend hfin, ?_⟩,
          ⟨rfl, rfl, ?_, nofun⟩⟩
        · exact fun _ hudp => horderly (.inl rfl) hudp
        · intro hended
          rw [hstage.1] at hended
          cases hended
      · cases hact
  | download n =>
      simp only [Task.act] at hact
      split at hact
      · cases hact
      · rename_i bytes rest hread
        split at hact
        · rename_i hstage
          have hfin := h.not_fin (by rw [hstage.1]; decide)
          obtain ⟨rfl, rfl⟩ := hsome hact
          obtain ⟨hsplit, hne⟩ := read_eq_some hread
          have hbalance := h.balance
          rw [hstage.2, hsplit] at hbalance
          refine ⟨hquiet ⟨hbalance, h.dialing, ?_, fun hend => absurd hend hfin, ?_⟩,
            ⟨rfl, rfl, id, nofun⟩⟩
          · intro hreached
            exact absurd (h.unreached hreached).1 hne
          · rintro (hend | ⟨-, hending⟩)
            · exact absurd hend hfin
            · rw [hstage.1] at hending
              cases hending
        · cases hact
  | forward =>
      simp only [Task.act] at hact
      split at hact
      · cases hact
      · rename_i bytes hpending
        split at hact
        · rename_i hstage
          have hfin := h.not_fin (by rw [hstage]; decide)
          have hbalance := h.balance
          rw [hpending] at hbalance
          split at hact
          · obtain ⟨rfl, rfl⟩ := hsome hact
            refine ⟨⟨?_, h.dialing, ?_, ?_, ?_⟩, ⟨rfl, rfl, id, ?_⟩⟩
            · rw [bytesOf, List.append_assoc]
              exact hbalance
            · intro hreached
              exact ⟨(h.unreached hreached).1, rfl⟩
            · rintro (hend | hend)
              · exact absurd hend hfin
              · cases hend
            · rintro ((hend | hend) | ⟨-, hending⟩)
              · exact absurd hend hfin
              · cases hend
              · rw [hstage] at hending
                cases hending
            · intro f hf
              obtain rfl := Option.some.inj hf
              refine ⟨rfl, ?_⟩
              rw [hstage]
              decide
          · rename_i hgone
            obtain ⟨rfl, rfl⟩ := hsome hact
            refine ⟨hquiet ⟨h.balance, nofun, h.unreached, fun hend => absurd hend hfin, ?_⟩,
              ⟨rfl, rfl, ?_, nofun⟩⟩
            · rintro (hend | ⟨hconnected, -⟩)
              · exact absurd hend hfin
              · exact absurd hconnected hgone
            · intro hended
              rw [hstage] at hended
              cases hended
        · cases hact
  | downEnd =>
      simp only [Task.act] at hact
      split at hact
      · rename_i hstage
        obtain ⟨hrelaying, hpending, hdone⟩ := hstage
        have hfin := h.not_fin (by rw [hrelaying]; decide)
        obtain ⟨rfl, rfl⟩ := hsome hact
        refine ⟨hquiet ⟨h.balance, nofun, h.unreached, fun hend => absurd hend hfin, ?_⟩,
          ⟨rfl, rfl, ?_, nofun⟩⟩
        · intro _ hudp
          rcases hdone with hdatagrams | ⟨hclosed, hunread⟩
          · rw [show t.udp = false from hudp] at hdatagrams
            cases hdatagrams
          · exact ⟨.inl hclosed, hunread, hpending⟩
        · intro hended
          rw [hrelaying] at hended
          cases hended
      · cases hact
  | finish =>
      simp only [Task.act] at hact
      split at hact
      · rename_i hstage
        have hfin := h.not_fin (by rw [hstage]; decide)
        obtain ⟨rfl, rfl⟩ := hsome hact
        refine ⟨⟨?_, nofun, h.unreached, fun _ => rfl, ?_⟩, ⟨rfl, rfl, fun _ => rfl, ?_⟩⟩
        · have hnothing : bytesOf (if connected = true then some (.fin t.sessionId) else none) = [] := by
            split <;> rfl
          rw [hnothing, List.append_nil]
          exact h.balance
        · rintro ((hend | hend) | ⟨-, hending⟩) hudp
          · exact absurd hend hfin
          · cases connected with
            | false => cases hend
            | true => exact h.drained (.inr ⟨rfl, hstage⟩) hudp
          · cases hending
        · intro f hf
          cases connected with
          | false => cases hf
          | true =>
              obtain rfl := Option.some.inj hf
              refine ⟨rfl, ?_⟩
              rw [hstage]
              decide
      · cases hact
  | targetSends bytes =>
      simp only [Task.act] at hact
      split at hact
      · rename_i hopen
        obtain ⟨rfl, rfl⟩ := hsome hact
        refine ⟨hquiet ⟨?_, h.dialing, ?_, h.atEnd, ?_⟩, ⟨rfl, rfl, id, nofun⟩⟩
        · show t.sent ++ bytes = data ++ (t.pending.getD [] ++ (t.unread ++ [bytes]).flatten)
          rw [h.balance, List.flatten_append, List.flatten_singleton]
          simp only [List.append_assoc]
        · intro hreached
          rw [show t.reached = false from hreached] at hopen
          cases hopen.1
        · intro hover hudp
          -- nothing comes from a target that is drained
          rcases (h.drained hover hudp).1 with hclosed | hreached
          · rw [hopen.2] at hclosed
            cases hclosed
          · rw [hopen.1] at hreached
            cases hreached
      · cases hact
  | targetCloses =>
      simp only [Task.act] at hact
      split at hact
      · obtain ⟨rfl, rfl⟩ := hsome hact
        refine ⟨hquiet ⟨h.balance, h.dialing, h.unreached, h.atEnd, ?_⟩, ⟨rfl, rfl, id, nofun⟩⟩
        intro hover hudp
        exact ⟨.inl rfl, (h.drained hover hudp).2⟩
      · cases hact
  | targetResets =>
      simp only [Task.act] at hact
      split at hact
      · obtain ⟨rfl, rfl⟩ := hsome hact
        refine ⟨hquiet ⟨?_, h.dialing, ?_, h.atEnd, ?_⟩, ⟨rfl, rfl, id, nofun⟩⟩
        · show t.sent.take (t.sent.length - t.unread.flatten.length) = data ++ (t.pending.getD [] ++ [])
          rw [h.balance, ← List.append_assoc, List.length_append, Nat.add_sub_cancel, List.take_left,
            List.append_nil]
        · intro hreached
          exact ⟨rfl, (h.unreached hreached).2⟩
        · intro hover hudp
          exact ⟨.inl rfl, rfl, (h.drained hover hudp).2.2⟩
      · cases hact

end

/-! ### The connection -/

/-- What holds of a connection in every orderly run. -/
structure Sound (s : State) : Prop where
  fits : ∀ {g t}, s.tasks[g]? = some t → Fits s.connected (dataOf s.log g) (Ended s.log g) t
  finLast : ∀ {g sessionId before after},
    s.log = before ++ .queued (some g) (.fin sessionId) :: after → dataOf after g = []
  known : ∀ {g frame}, .queued (some g) frame ∈ s.log → g < s.tasks.length
  opened : ∀ {g sessionId}, .opened g sessionId ∈ s.log → g < s.tasks.length
  latest : ∀ {g t g'}, s.tasks[g]? = some t → .opened g' t.sessionId ∈ s.log → g < g' → t.stage = .ended
  isolated : Isolated s.log

section

variable {s s' : State} {g : Nat} {t t' : Task}

theorem Fits.disconnect {data : List UInt8} {fin : Prop} {connected : Bool}
    (h : Fits connected data fin t) : Fits false data fin t := by
  refine ⟨h.balance, h.dialing, h.unreached, h.atEnd, ?_⟩
  rintro (hfin | ⟨hconnected, -⟩)
  · exact h.drained (.inl hfin)
  · cases hconnected

/-- **Nothing is queued**: tasks go on as they fit, or the client leaves. -/
theorem Sound.quiet (h : Sound s) (hlog : s'.log = s.log) (hlen : s'.tasks.length = s.tasks.length)
    (htasks : ∀ {g t'}, s'.tasks[g]? = some t' → ∃ t, s.tasks[g]? = some t ∧
      t'.sessionId = t.sessionId ∧ (t.stage = .ended → t'.stage = .ended) ∧
      Fits s'.connected (dataOf s.log g) (Ended s.log g) t') : Sound s' := by
  refine ⟨?_, ?_, ?_, ?_, ?_, ?_⟩
  · intro g t' ht'
    obtain ⟨t, -, -, -, hfits⟩ := htasks ht'
    rw [hlog]
    exact hfits
  · rw [hlog]
    exact h.finLast
  · rw [hlog, hlen]
    exact h.known
  · rw [hlog, hlen]
    exact h.opened
  · intro g t' g' ht' hopened hlt
    obtain ⟨t, ht, hid, hended, -⟩ := htasks ht'
    rw [hlog, hid] at hopened
    exact hended (h.latest ht hopened hlt)
  · rw [hlog]
    exact h.isolated

/-- The task at a place that was set. -/
theorem getElem?_set_cases {tasks : List Task} {k : Nat} {t t' u : Task} (ht : tasks[g]? = some t)
    (h : (tasks.set g t')[k]? = some u) : (k = g ∧ u = t') ∨ (k ≠ g ∧ tasks[k]? = some u) := by
  by_cases hk : k = g
  · subst hk
    have hlt : k < tasks.length := (List.getElem?_eq_some_iff.mp ht).1
    rw [List.getElem?_set_self hlt] at h
    exact .inl ⟨rfl, (Option.some.inj h).symm⟩
  · rw [List.getElem?_set_ne (Ne.symm hk)] at h
    exact .inr ⟨hk, h⟩

/-- One task goes on, and nothing is queued. -/
theorem Sound.setTask (h : Sound s) (ht : s.tasks[g]? = some t) (hid : t'.sessionId = t.sessionId)
    (hended : t.stage = .ended → t'.stage = .ended)
    (hfits : Fits s.connected (dataOf s.log g) (Ended s.log g) t') :
    Sound { s with tasks := s.tasks.set g t' } := by
  refine h.quiet rfl (List.length_set ..) ?_
  intro k u hu
  rcases getElem?_set_cases ht hu with ⟨rfl, rfl⟩ | ⟨-, hu⟩
  · exact ⟨t, ht, hid, hended, hfits⟩
  · exact ⟨u, hu, rfl, id, h.fits hu⟩

theorem ended_concat {log : List Entry} {x : Entry} :
    Ended (log ++ [x]) g ↔ Ended log g ∨ ∃ sessionId, x = .queued (some g) (.fin sessionId) := by
  constructor
  · rintro ⟨sessionId, hmem⟩
    rcases List.mem_append.mp hmem with hmem | hmem
    · exact .inl ⟨sessionId, hmem⟩
    · exact .inr ⟨sessionId, (List.mem_singleton.mp hmem).symm⟩
  · rintro (⟨sessionId, hmem⟩ | ⟨sessionId, rfl⟩)
    · exact ⟨sessionId, List.mem_append_left _ hmem⟩
    · exact ⟨sessionId, List.mem_append_right _ List.mem_cons_self⟩

/-- An entry that no task has made. -/
def Entry.Foreign (x : Entry) (g : Nat) : Prop := ∀ frame, x ≠ .queued (some g) frame

theorem Entry.Foreign.carried {x : Entry} (h : x.Foreign g) : carried x g = [] := by
  match x with
  | .opened _ _ => rfl
  | .queued none _ => rfl
  | .queued (some _) (.fin _) => rfl
  | .queued (some _) (.keepAlive _) => rfl
  | .queued (some k) (.data id bytes) =>
      refine if_neg ?_
      rintro rfl
      exact h _ rfl

theorem Fits.foreign {log : List Entry} {x : Entry} {connected : Bool} (hx : x.Foreign g)
    (h : Fits connected (dataOf log g) (Ended log g) t) :
    Fits connected (dataOf (log ++ [x]) g) (Ended (log ++ [x]) g) t := by
  have hsame : Ended (log ++ [x]) g = Ended log g := by
    apply propext
    rw [ended_concat]
    constructor
    · rintro (hended | ⟨sessionId, heq⟩)
      · exact hended
      · exact absurd heq (hx _)
    · exact .inl
  rw [dataOf_concat, hx.carried, List.append_nil, hsame]
  exact h

/-- **The reader queues a frame of its own.** -/
theorem Sound.sendNone (h : Sound s) {frame : MuxFrame} (hsend : s.send none frame = some s') :
    Sound s' := by
  rw [State.send] at hsend
  split at hsend
  · obtain rfl := Option.some.inj hsend
    have hforeign : ∀ g, (Entry.queued none frame).Foreign g := fun g other heq => by cases heq
    refine ⟨fun ht => (h.fits ht).foreign (hforeign _), ?_, ?_, ?_, ?_, ?_⟩
    · intro g sessionId before after hlog
      rcases concat_cases hlog with ⟨-, heq, -⟩ | ⟨rest, rfl, hrest⟩
      · exact absurd heq (hforeign g _)
      · rw [dataOf_concat, (hforeign g).carried, List.append_nil]
        exact h.finLast hrest
    · intro g other hmem
      rcases List.mem_append.mp hmem with hmem | hmem
      · exact h.known hmem
      · cases List.mem_singleton.mp hmem
    · intro g sessionId hmem
      rcases List.mem_append.mp hmem with hmem | hmem
      · exact h.opened hmem
      · cases List.mem_singleton.mp hmem
    · intro g t g' ht hmem
      rcases List.mem_append.mp hmem with hmem | hmem
      · exact h.latest ht hmem
      · cases List.mem_singleton.mp hmem
    · intro before after g g' sessionId other hlog hmem
      rcases concat_cases hlog with ⟨-, -, rfl⟩ | ⟨rest, rfl, hrest⟩
      · cases hmem
      · rcases List.mem_append.mp hmem with hmem | hmem
        · exact h.isolated before rest g g' sessionId other hrest hmem
        · cases List.mem_singleton.mp hmem
  · cases hsend

/-- **A task queues a frame.** -/
theorem Sound.sendOwn (h : Sound s) (ht : s.tasks[g]? = some t) {frame : MuxFrame}
    (hkeeps : Keeps t t' (some frame))
    (hfits : Fits s.connected (dataOf s.log g ++ bytesOf (some frame))
      (Ended s.log g ∨ isFin (some frame)) t')
    (hsend : { s with tasks := s.tasks.set g t' }.send (some g) frame = some s') : Sound s' := by
  obtain ⟨hid, hstage⟩ := hkeeps.own frame rfl
  have hnotEnded : ¬ Ended s.log g := (h.fits ht).not_fin hstage
  rw [State.send] at hsend
  split at hsend
  · obtain rfl := Option.some.inj hsend
    have hforeign : ∀ {k}, k ≠ g → (Entry.queued (some g) frame).Foreign k := by
      intro k hk other heq
      injection heq with howner
      exact hk (Option.some.inj howner).symm
    refine ⟨?_, ?_, ?_, ?_, ?_, ?_⟩
    · intro k u hu
      rcases getElem?_set_cases ht hu with ⟨rfl, rfl⟩ | ⟨hk, hu⟩
      · have hbytes : carried (.queued (some k) frame) k = bytesOf (some frame) := by
          cases frame with
          | data id bytes => exact if_pos rfl
          | fin id => rfl
          | keepAlive id => rfl
        have hfin : Ended (s.log ++ [.queued (some k) frame]) k =
            (Ended s.log k ∨ isFin (some frame)) := by
          apply propext
          rw [ended_concat]
          apply or_congr Iff.rfl
          cases frame with
          | fin id => exact ⟨fun _ => trivial, fun _ => ⟨id, rfl⟩⟩
          | data id bytes => exact ⟨fun ⟨_, heq⟩ => (by cases heq), False.elim⟩
          | keepAlive id => exact ⟨fun ⟨_, heq⟩ => (by cases heq), False.elim⟩
        show Fits s.connected (dataOf (s.log ++ [.queued (some k) frame]) k)
          (Ended (s.log ++ [.queued (some k) frame]) k) u
        rw [dataOf_concat, hbytes, hfin]
        exact hfits
      · exact (h.fits hu).foreign (hforeign hk)
    · intro k sessionId before after hlog
      rcases concat_cases hlog with ⟨-, -, rfl⟩ | ⟨rest, rfl, hrest⟩
      · rfl
      · -- the END frame was queued before, so this frame is of another task
        have hk : k ≠ g := by
          rintro rfl
          apply hnotEnded
          refine ⟨sessionId, ?_⟩
          rw [hrest]
          exact List.mem_append_right _ List.mem_cons_self
        rw [dataOf_concat, (hforeign hk).carried, List.append_nil]
        exact h.finLast hrest
    · intro k other hmem
      show k < (s.tasks.set g t').length
      rw [List.length_set]
      rcases List.mem_append.mp hmem with hmem | hmem
      · exact h.known hmem
      · injection List.mem_singleton.mp hmem with howner
        obtain rfl := Option.some.inj howner
        exact (List.getElem?_eq_some_iff.mp ht).1
    · intro k sessionId hmem
      show k < (s.tasks.set g t').length
      rw [List.length_set]
      rcases List.mem_append.mp hmem with hmem | hmem
      · exact h.opened hmem
      · cases List.mem_singleton.mp hmem
    · intro k u g' hu hmem hlt
      have hold : .opened g' u.sessionId ∈ s.log := by
        rcases List.mem_append.mp hmem with hmem | hmem
        · exact hmem
        · cases List.mem_singleton.mp hmem
      rcases getElem?_set_cases ht hu with ⟨rfl, rfl⟩ | ⟨-, hu⟩
      · rw [hkeeps.sessionId] at hold
        exact absurd (h.latest ht hold hlt) hstage
      · exact h.latest hu hold hlt
    · intro before after k g' sessionId other hlog hmem hsame
      rcases concat_cases hlog with ⟨-, heq, -⟩ | ⟨rest, rfl, hrest⟩
      · cases heq
      · rcases List.mem_append.mp hmem with hmem | hmem
        · exact h.isolated before rest k g' sessionId other hrest hmem hsame
        · -- a session that was opened later would have ended this task
          injection List.mem_singleton.mp hmem with howner hframe
          obtain rfl := Option.some.inj howner
          subst hframe
          by_contra hlt
          apply hstage
          apply h.latest ht _ (Nat.lt_of_not_le hlt)
          rw [← hid, hsame, hrest]
          exact List.mem_append_right _ List.mem_cons_self
  · cases hsend

/-- **A session is opened**, when no task has its id. -/
theorem Sound.openSession (h : Sound s) (sessionId : UInt16) (udp : Bool) (payload : List UInt8)
    (hfree : ∀ t ∈ s.tasks, t.sessionId = sessionId → t.stage = .ended) :
    Sound (s.openSession sessionId udp payload) := by
  have hforeign : ∀ g, (Entry.opened s.tasks.length sessionId).Foreign g := fun g other heq => by cases heq
  have hcases : ∀ {g u}, (s.tasks ++ [Task.new sessionId udp payload])[g]? = some u →
      s.tasks[g]? = some u ∨ (g = s.tasks.length ∧ u = .new sessionId udp payload) := by
    intro g u hu
    rcases Nat.lt_trichotomy g s.tasks.length with hlt | rfl | hlt
    · rw [List.getElem?_append_left hlt] at hu
      exact .inl hu
    · rw [List.getElem?_concat_length] at hu
      exact .inr ⟨rfl, (Option.some.inj hu).symm⟩
    · rw [List.getElem?_eq_none (by rw [List.length_append, List.length_singleton]; omega)] at hu
      cases hu
  have hnew : ∀ frame, Entry.queued (some s.tasks.length) frame ∉ s.log :=
    fun frame hmem => Nat.lt_irrefl _ (h.known hmem)
  refine ⟨?_, ?_, ?_, ?_, ?_, ?_⟩
  · intro g u hu
    refine Fits.foreign (hforeign g) ?_
    rcases hcases hu with hu | ⟨rfl, rfl⟩
    · exact h.fits hu
    · have hended : ¬ Ended s.log s.tasks.length := fun ⟨_, hmem⟩ => hnew _ hmem
      refine ⟨?_, fun _ => rfl, fun _ => ⟨rfl, rfl⟩, fun hend => absurd hend hended, ?_⟩
      · rw [dataOf_eq_nil hnew]
        rfl
      · rintro (hend | ⟨-, hending⟩)
        · exact absurd hend hended
        · cases hending
  · intro g id before after hlog
    rcases concat_cases hlog with ⟨-, -, rfl⟩ | ⟨rest, rfl, hrest⟩
    · rfl
    · rw [dataOf_concat, (hforeign g).carried, List.append_nil]
      exact h.finLast hrest
  · intro g frame hmem
    show g < (s.tasks ++ [_]).length
    rw [List.length_append]
    rcases List.mem_append.mp hmem with hmem | hmem
    · exact Nat.lt_add_right _ (h.known hmem)
    · cases List.mem_singleton.mp hmem
  · intro g id hmem
    show g < (s.tasks ++ [_]).length
    rw [List.length_append, List.length_singleton]
    rcases List.mem_append.mp hmem with hmem | hmem
    · exact Nat.lt_add_right _ (h.opened hmem)
    · injection List.mem_singleton.mp hmem with hg
      omega
  · intro g u g' hu hmem hlt
    rcases List.mem_append.mp hmem with hmem | hmem
    · rcases hcases hu with hu | ⟨rfl, rfl⟩
      · exact h.latest hu hmem hlt
      · exact absurd (h.opened hmem) (Nat.not_lt_of_le (Nat.le_of_lt hlt))
    · injection List.mem_singleton.mp hmem with hg hid
      rcases hcases hu with hu | ⟨rfl, rfl⟩
      · exact hfree u (List.mem_of_getElem? hu) hid
      · omega
  · intro before after k g' id other hlog hmem
    rcases concat_cases hlog with ⟨-, -, rfl⟩ | ⟨rest, rfl, hrest⟩
    · cases hmem
    · rcases List.mem_append.mp hmem with hmem | hmem
      · exact h.isolated before rest k g' id other hrest hmem
      · cases List.mem_singleton.mp hmem

variable {env : Env}

theorem Sound.sendSub (h : Sound s) {payload : List UInt8} (hsend : s.sendSub g payload = some s') :
    Sound s' := by
  rw [State.sendSub] at hsend
  split at hsend
  · obtain rfl := Option.some.inj hsend
    exact h
  · rename_i t ht
    split at hsend
    · obtain rfl := Option.some.inj hsend
      exact h
    · split at hsend
      · obtain rfl := Option.some.inj hsend
        have hfits := h.fits ht
        exact h.setTask ht rfl id ⟨hfits.balance, hfits.dialing, hfits.unreached, hfits.atEnd, hfits.drained⟩
      · cases hsend

theorem Sound.markEnded (h : Sound s) (g : Nat) : Sound (s.markEnded g) := by
  rw [State.markEnded]
  split
  · exact h
  · rename_i t ht
    split
    · exact h
    · have hfits := h.fits ht
      exact h.setTask ht rfl id ⟨hfits.balance, hfits.dialing, hfits.unreached, hfits.atEnd, hfits.drained⟩

/-- The senders of the reader do not matter. -/
theorem Sound.withSessions (h : Sound s) (sessions : AssocMap UInt16 Nat) :
    Sound { s with sessions := sessions } :=
  ⟨h.fits, h.finLast, h.known, h.opened, h.latest, h.isolated⟩

/-- **The reader handles a frame.** -/
theorem Sound.receive (h : Sound s) {f : ClientFrame} (horderly : Orderly env s (.client f))
    (hstep : s.receive env f = some s') : Sound s' := by
  rw [State.receive] at hstep
  split at hstep
  · obtain rfl := Option.some.inj hstep
    exact h
  split at hstep
  · rename_i hopens
    split at hstep
    · obtain rfl := Option.some.inj hstep
      exact h
    · rename_i hlong
      split at hstep
      · rename_i hadmitted
        obtain rfl := Option.some.inj hstep
        exact h.openSession _ _ _ (horderly (Nat.le_of_not_lt hlong) hopens hadmitted)
      · exact h.sendNone hstep
  split at hstep
  · split at hstep
    · exact h.sendNone hstep
    · split at hstep
      · obtain rfl := Option.some.inj hstep
        exact h
      · exact h.sendSub hstep
  split at hstep
  · split at hstep
    · obtain rfl := Option.some.inj hstep
      exact h
    · obtain rfl := Option.some.inj hstep
      exact (h.markEnded _).withSessions _
  split at hstep
  · exact h.sendNone hstep
  · obtain rfl := Option.some.inj hstep
    exact h

/-- **A task takes a step.** -/
theorem Sound.runTask (h : Sound s) {e : TaskEvent} (horderly : Orderly env s (.task g e))
    (hstep : s.runTask g e = some s') : Sound s' := by
  rw [State.runTask] at hstep
  split at hstep
  · cases hstep
  · rename_i t ht
    have hcalm : e = .upEnd ∨ e = .wrote false → t.udp = false → t.Drained := by
      rintro (rfl | rfl)
      · exact horderly t ht
      · exact horderly t ht
    split at hstep
    · cases hstep
    · rename_i t' hact
      obtain rfl := Option.some.inj hstep
      obtain ⟨hfits, hkeeps⟩ := (h.fits ht).act hcalm hact
      have hsame : Fits s.connected (dataOf s.log g ++ []) (Ended s.log g ∨ False) t' := hfits
      rw [List.append_nil, or_false] at hsame
      exact h.setTask ht hkeeps.sessionId hkeeps.ended hsame
    · rename_i t' frame hact
      obtain ⟨hfits, hkeeps⟩ := (h.fits ht).act hcalm hact
      exact h.sendOwn ht hkeeps hfits hstep

/-- **Every orderly step.** -/
theorem Sound.step (h : Sound s) {e : Event} (horderly : Orderly env s e)
    (hstep : s.step env e = some s') : Sound s' := by
  cases e with
  | client f =>
      rw [State.step] at hstep
      split at hstep
      · exact h.receive horderly hstep
      · cases hstep
  | task g e => exact h.runTask horderly hstep
  | write =>
      simp only [State.step] at hstep
      split at hstep
      · cases hstep
      · split at hstep
        · obtain rfl := Option.some.inj hstep
          exact ⟨h.fits, h.finLast, h.known, h.opened, h.latest, h.isolated⟩
        · cases hstep
  | leave =>
      obtain rfl := Option.some.inj hstep
      exact h.quiet rfl rfl fun {k u} hu => ⟨u, hu, rfl, id, (h.fits hu).disconnect⟩

theorem sound_new : Sound State.new := by
  refine ⟨nofun, ?_, nofun, nofun, nofun, ?_⟩
  · intro g sessionId before after hlog
    cases List.append_eq_nil_iff.mp hlog.symm |>.2
  · intro before after g g' sessionId frame hlog
    cases List.append_eq_nil_iff.mp hlog.symm |>.2

/-- Where all is sound, a session that the client has ended loses nothing. -/
theorem Sound.halfCloses (h : Sound s) : HalfCloses s := by
  intro g t before after ht hudp _ hlog
  have hfits := h.fits ht
  have hended : Ended s.log g := by
    refine ⟨t.sessionId, ?_⟩
    rw [hlog]
    exact List.mem_append_right _ List.mem_cons_self
  obtain ⟨-, hunread, hpending⟩ := hfits.drained (.inl hended) hudp
  have hbalance := hfits.balance
  rw [hunread, hpending] at hbalance
  have hsplit : dataOf s.log g = dataOf before g ++ (dataOf [.queued (some g) (.fin t.sessionId)] g ++
      dataOf after g) := by
    show dataOf s.log g = _
    rw [hlog, ← dataOf_append, ← dataOf_append]
    rfl
  rw [hbalance, hsplit, h.finLast hlog]
  simp [dataOf, carried]

end

/-- **Sessions half-close cleanly and are isolated in every orderly run.** -/
theorem orderly_sessions_isolated (env : Env) (events : List Event) (s : State)
    (horderly : Run.Along (State.step env) (Orderly env) .new events)
    (hrun : Run.exec (State.step env) .new events = some s) : HalfCloses s ∧ Isolated s.log := by
  have hsound : Sound s :=
    Run.exec_invariant (fun h horderly hstep => Sound.step h horderly hstep) hrun horderly sound_new
  exact ⟨hsound.halfCloses, hsound.isolated⟩

/-! ### Three runs -/

def openEnv : Env := ⟨fun _ _ _ => false, fun _ => none⟩

/-- Session 1 is opened to port 80 of 127.0.0.1. -/
def openFrame : ClientFrame := ⟨[0, 1, 1, 0, 1, 0, 80, 1, 127, 0, 0, 1], []⟩

def endFrame : ClientFrame := ⟨[0, 1, 3, 0], []⟩

/-- The client ends the session, the target answers and closes, and the download
is first; then the id is used again. -/
def answeredEvents : List Event :=
  [.client openFrame, .task 0 (.dialed true), .client endFrame, .task 0 (.targetSends [9]),
    .task 0 (.download 100), .task 0 .upStop, .task 0 .forward, .task 0 .targetCloses,
    .task 0 .downEnd, .task 0 .finish, .write, .client openFrame]

theorem answered_after_end :
    ∃ s, Run.exec (State.step openEnv) .new answeredEvents = some s ∧
      s.log = [.opened 0 1, .queued (some 0) (.data 1 [9]), .queued (some 0) (.fin 1), .opened 1 1] ∧
      HalfCloses s ∧ Isolated s.log := by
  refine ⟨_, rfl, rfl, ?_⟩
  exact orderly_sessions_isolated openEnv answeredEvents _ (by decide) rfl

/-- The client ends the session and the upload is first: what the target sends is
lost.  And the id is opened again while the first session is there: its END frame
comes after the opening. -/
theorem tail_lost_and_late_end :
    (∃ s, Run.exec (State.step openEnv) .new [.client openFrame, .task 0 (.dialed true),
        .client endFrame, .task 0 .upStop, .task 0 .upEnd, .task 0 .finish,
        .task 0 (.targetSends [9])] = some s ∧ ¬ HalfCloses s) ∧
      ∃ s, Run.exec (State.step openEnv) .new [.client openFrame, .task 0 (.dialed true),
        .client openFrame, .task 0 .upStop, .task 0 .upEnd, .task 0 .finish] = some s ∧
        ¬ Isolated s.log := by
  refine ⟨⟨_, rfl, ?_⟩, ⟨_, rfl, ?_⟩⟩
  · intro h
    have hlost := h 0 _ [.opened 0 1] [] rfl rfl rfl rfl
    revert hlost
    decide
  · intro h
    have hlate := h [.opened 0 1] [.queued (some 0) (.fin 1)] 0 1 1 (.fin 1) rfl (by decide) rfl
    revert hlate
    decide

end Mux

end Vless

end Elise
