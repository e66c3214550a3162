/-
Elise/Lib/Redis.lean

Redis sorted sets with expiring keys, as far as scripts use them.

A key holds members with integer scores and, once `expire` was called on it,
the second it lapses at: a key is gone from the first second after that.  A
set that loses its last member is deleted with its key.  Each command takes
the database and the time of the server; a script is a composition of
commands and runs as one step.

The view is `members`: what a command sees of a key at a time.
-/
import Elise.Lib.AssocMap

namespace Redis

/-- A sorted set and the second its key lapses at. -/
structure ZKey where
  members : AssocMap String Nat
  expireAt : Option Nat

abbrev Db := AssocMap String ZKey

/-- The key still exists at `now`. -/
def ZKey.present (z : ZKey) (now : Nat) : Bool :=
  match z.expireAt with
  | some lapse => now ≤ lapse
  | none => true

/-- The key as a command sees it. -/
def find (db : Db) (now : Nat) (key : String) : Option ZKey :=
  (db.get key).filter fun z => z.present now

/-- The members of a key; none when there is no key. -/
def members (db : Db) (now : Nat) (key : String) : AssocMap String Nat :=
  ((find db now key).map ZKey.members).getD ∅

/-! ### Commands -/

/-- `ZREMRANGEBYSCORE key -inf max`. -/
def zRemRangeByScore (db : Db) (now : Nat) (key : String) (max : Int) : Db :=
  match find db now key with
  | none => db
  | some z =>
      let members := z.members.retain fun _ score => max < (score : Int)
      if members.isEmpty then db.erase key else db.insert key { z with members }

/-- `ZSCORE key member`. -/
def zScore (db : Db) (now : Nat) (key member : String) : Option Nat :=
  (members db now key).get member

/-- `ZADD key score member`; a new key does not lapse. -/
def zAdd (db : Db) (now : Nat) (key : String) (score : Nat) (member : String) : Db :=
  match find db now key with
  | none => db.insert key ⟨AssocMap.insert ∅ member score, none⟩
  | some z => db.insert key { z with members := z.members.insert member score }

/-- `EXPIRE key seconds`. -/
def expire (db : Db) (now : Nat) (key : String) (seconds : Nat) : Db :=
  match find db now key with
  | none => db
  | some z => db.insert key { z with expireAt := some (now + seconds) }

/-- `ZCARD key`. -/
def zCard (db : Db) (now : Nat) (key : String) : Nat := (members db now key).len

/-- `ZRANGEBYSCORE key min +inf`. -/
def zRangeByScore (db : Db) (now : Nat) (key : String) (min : Nat) : List String :=
  ((members db now key).retain fun _ score => min ≤ score).keys

/-! ### What commands do to the view -/

theorem ZKey.present_of_le {z : ZKey} {now t : Nat} (h : now ≤ t) (ht : z.present t = true) :
    z.present now = true := by
  unfold ZKey.present at ht ⊢
  cases hexp : z.expireAt with
  | none => rfl
  | some lapse =>
      simp only [hexp, decide_eq_true_eq] at ht ⊢
      omega

/-- A key that is gone now is gone later. -/
theorem find_eq_none_of_le {db : Db} {now t : Nat} {key : String} (h : now ≤ t)
    (hnow : find db now key = none) : find db t key = none := by
  unfold find at hnow ⊢
  rcases hget : db.get key with - | z
  · rfl
  · rw [hget, Option.filter_eq_none_iff] at hnow
    apply Option.filter_eq_none_iff.mpr
    intro z' hz' ht
    exact hnow z' hz' (ZKey.present_of_le h ht)

theorem members_of_find_eq_none {db : Db} {t : Nat} {key : String} (h : find db t key = none) :
    members db t key = ∅ := by
  rw [members, h]
  rfl

/-- A command on one key leaves the others. -/
theorem members_congr {db db' : Db} {key : String} (h : db'.get key = db.get key) (t : Nat) :
    members db' t key = members db t key := by
  unfold members find
  rw [h]

theorem get_zRemRangeByScore_ne {db : Db} {now : Nat} {key key' : String} {max : Int}
    (h : key' ≠ key) : (zRemRangeByScore db now key max).get key' = db.get key' := by
  rw [zRemRangeByScore]
  split
  · rfl
  · dsimp only
    split
    · exact AssocMap.get_erase_ne _ h
    · exact AssocMap.get_insert_ne _ _ h

theorem members_of_get {db : Db} {t : Nat} {key : String} {z : ZKey} (h : db.get key = some z) :
    members db t key = if z.present t then z.members else ∅ := by
  rw [members, find]
  rw [h, Option.filter_some]
  cases z.present t <;> rfl

/-- **`ZREMRANGEBYSCORE` keeps the members above the bound**, at every later
time too. -/
theorem members_zRemRangeByScore {db : Db} {now t : Nat} {key : String} {max : Int}
    (h : now ≤ t) :
    members (zRemRangeByScore db now key max) t key =
      (members db t key).retain fun _ score => max < (score : Int) := by
  rcases hfind : find db now key with - | z
  -- a key that is gone stays gone, and the command does nothing
  · simp only [zRemRangeByScore, hfind]
    rw [members_of_find_eq_none (find_eq_none_of_le h hfind)]
    rfl
  · have hget : db.get key = some z := (Option.filter_eq_some_iff.mp hfind).1
    simp only [zRemRangeByScore, hfind]
    rw [members_of_get hget]
    by_cases hemp : (z.members.retain fun _ score => max < (score : Int)).isEmpty
    · -- the key goes with its last member
      have hnone : find (db.erase key) t key = none := by
        rw [find]
        rw [AssocMap.get_erase_self]
        rfl
      rw [if_pos hemp, members_of_find_eq_none hnone]
      cases z.present t
      · rfl
      · exact (AssocMap.isEmpty_iff.mp hemp).symm
    · rw [if_neg hemp, members_of_get (AssocMap.get_insert_self _ _ _)]
      show (if z.present t then _ else _) = _
      cases z.present t <;> rfl

/-- What `ZREMRANGEBYSCORE` leaves was there before. -/
theorem get_zRemRangeByScore_eq_some {db : Db} {now : Nat} {key key' : String} {max : Int}
    {z' : ZKey} (h : (zRemRangeByScore db now key max).get key' = some z') :
    ∃ z, db.get key' = some z ∧ z'.expireAt = z.expireAt ∧
      ∀ member score, z'.members.get member = some score → z.members.get member = some score := by
  by_cases hk : key' = key
  · subst hk
    rcases hfind : find db now key' with - | z
    · simp only [zRemRangeByScore, hfind] at h
      exact ⟨z', h, rfl, fun _ _ hget => hget⟩
    · have hget : db.get key' = some z := (Option.filter_eq_some_iff.mp hfind).1
      simp only [zRemRangeByScore, hfind] at h
      split at h
      · rw [AssocMap.get_erase_self] at h
        cases h
      · rw [AssocMap.get_insert_self, Option.some.injEq] at h
        obtain rfl := h
        refine ⟨z, hget, rfl, ?_⟩
        intro member score hmem
        rw [AssocMap.get_retain, Option.filter_eq_some_iff] at hmem
        exact hmem.1
  · rw [get_zRemRangeByScore_ne hk] at h
    exact ⟨z', h, rfl, fun _ _ hget => hget⟩

theorem get_zAdd_ne {db : Db} {now score : Nat} {key key' member : String} (h : key' ≠ key) :
    (zAdd db now key score member).get key' = db.get key' := by
  rw [zAdd]
  split <;> exact AssocMap.get_insert_ne _ _ h

theorem find_zAdd (db : Db) (now score : Nat) (key member : String) :
    ∃ lapse, find (zAdd db now key score member) now key =
      some ⟨(members db now key).insert member score, lapse⟩ := by
  rcases hfind : find db now key with - | z
  · refine ⟨none, ?_⟩
    simp only [zAdd, hfind]
    show (AssocMap.get (AssocMap.insert db key _) key).filter _ = _
    rw [AssocMap.get_insert_self, members_of_find_eq_none hfind]
    rfl
  · refine ⟨z.expireAt, ?_⟩
    have hz : z.present now = true := (Option.filter_eq_some_iff.mp hfind).2
    simp only [zAdd, hfind]
    show (AssocMap.get (AssocMap.insert db key _) key).filter _ = _
    rw [AssocMap.get_insert_self, Option.filter_some, members, hfind]
    exact if_pos hz

theorem get_expire_ne {db : Db} {now seconds : Nat} {key key' : String} (h : key' ≠ key) :
    (expire db now key seconds).get key' = db.get key' := by
  rw [expire]
  split
  · rfl
  · exact AssocMap.get_insert_ne _ _ h

/-- **`ZADD` and `EXPIRE`**: the key holds the members and the new one, and
lapses after the given time. -/
theorem get_zAdd_expire (db : Db) (now score seconds : Nat) (key member : String) :
    (expire (zAdd db now key score member) now key seconds).get key =
      some ⟨(members db now key).insert member score, some (now + seconds)⟩ := by
  obtain ⟨lapse, hfind⟩ := find_zAdd db now score key member
  simp only [expire, hfind]
  rw [AssocMap.get_insert_self]

end Redis
