/-
Elise/Limiter/Rate.lean

The limiter of rates (src/limiter/rate.rs) under every interleaving.

The users are spread over shards, each behind a lock.  A step is what is done under one lock, at
a time that the clock shows then: `set_user_limit`, `allow`, one round of the loop in
`throttle`, and one shard of `prune_idle`.  A round that finds too few tokens sleeps before the
next one, which may come at any later time.  The floating-point fields are rational numbers, and
times are numbers of seconds.

`Change` says what a step does to the bucket of one user.  A bucket that is sound stays so
(`Sound.step`): its tokens are between nothing and its capacity.  As long as the rate stays the
same, each change is a move of a budget (`Change.move`), so what is granted within an interval
is bounded.  That needs that a bucket is never replenished with a time before its last update.
`prune_idle` may do so, since it reads the clock before it takes the first lock; the time that
then lies between is counted twice (`stale_prune_grants_more`).
-/
import Elise.Lib.AssocMap
import Elise.Lib.Budget
import Elise.Lib.Run

namespace Elise

/-! ### Buckets -/

structure TokenBucket where
  capacity : ℚ
  tokens : ℚ
  ratePerSec : ℚ
  lastUpdate : ℚ

/-- `duration_since`: zero, if the other time is later. -/
def durationSince (now earlier : ℚ) : ℚ := max (now - earlier) 0

namespace TokenBucket

def capacityFor (rate : ℚ) : ℚ := max (rate * 2) 65536

def new (rateBytesPerSec : Nat) (now : ℚ) : TokenBucket where
  capacity := capacityFor rateBytesPerSec
  tokens := capacityFor rateBytesPerSec
  ratePerSec := rateBytesPerSec
  lastUpdate := now

def replenish (bucket : TokenBucket) (now : ℚ) : TokenBucket :=
  let elapsed := durationSince now bucket.lastUpdate
  { bucket with
    lastUpdate := now
    tokens := min (bucket.tokens + elapsed * bucket.ratePerSec) bucket.capacity }

def tryConsume (bucket : TokenBucket) (amount : Nat) (now : ℚ) : Bool × TokenBucket :=
  let bucket := bucket.replenish now
  if (amount : ℚ) ≤ bucket.tokens then (true, { bucket with tokens := bucket.tokens - amount })
  else (false, bucket)

/-- The new rate of a bucket that is there. -/
def limit (bucket : TokenBucket) (rate : Nat) (now : ℚ) : TokenBucket :=
  let bucket := bucket.replenish now
  { bucket with
    ratePerSec := rate
    capacity := capacityFor rate
    tokens := min bucket.tokens (capacityFor rate) }

end TokenBucket

/-! ### The limiter -/

structure RateLimiter where
  shards : Fin 32 → AssocMap UInt32 TokenBucket

/-- What a round of `throttle` comes to: no limit, so many bytes, or how long to wait. -/
inductive Round where
  | unlimited
  | granted (amount : Nat)
  | wait (secs : ℚ)

/-- The bytes that may pass after a round. -/
def Round.bytes (remaining : Nat) : Round → Nat
  | .unlimited => remaining
  | .granted amount => amount
  | .wait _ => 0

namespace RateLimiter

def new : RateLimiter := ⟨fun _ => ∅⟩

def shardIdx (userId : UInt32) : Fin 32 := Fin.ofNat 32 userId.toNat

def bucket (limiter : RateLimiter) (userId : UInt32) : Option TokenBucket :=
  (limiter.shards (shardIdx userId)).get userId

/-- The shard of a user is changed. -/
def modify (limiter : RateLimiter) (userId : UInt32)
    (f : AssocMap UInt32 TokenBucket → AssocMap UInt32 TokenBucket) : RateLimiter :=
  ⟨fun i => if i = shardIdx userId then f (limiter.shards i) else limiter.shards i⟩

def setUserLimit (limiter : RateLimiter) (userId : UInt32) (speedLimitBps : Nat) (now : ℚ) :
    RateLimiter :=
  limiter.modify userId fun shard =>
    if 0 < speedLimitBps then
      match shard.get userId with
      | some bucket => shard.insert userId (bucket.limit speedLimitBps now)
      | none => shard.insert userId (.new speedLimitBps now)
    else shard.erase userId

def allow (limiter : RateLimiter) (userId : UInt32) (bytes : Nat) (now : ℚ) : Bool × RateLimiter :=
  match limiter.bucket userId with
  | some bucket =>
      let (ok, bucket) := bucket.tryConsume bytes now
      (ok, limiter.modify userId fun shard => shard.insert userId bucket)
  | none => (true, limiter)

/-- `capacity as usize`. -/
def asUsize (x : ℚ) : Nat := min x.floor.toNat (2 ^ 64 - 1)

/-- One round of the loop in `throttle`. -/
def throttleRound (limiter : RateLimiter) (userId : UInt32) (remaining : Nat) (now : ℚ) :
    Round × RateLimiter :=
  match limiter.bucket userId with
  | none => (.unlimited, limiter)
  | some bucket =>
      let amount := min remaining (asUsize bucket.capacity)
      let (ok, bucket) := bucket.tryConsume amount now
      (if ok then .granted amount else .wait ((amount - bucket.tokens) / bucket.ratePerSec),
        limiter.modify userId fun shard => shard.insert userId bucket)

/-- One shard of `prune_idle`. -/
def pruneShard (limiter : RateLimiter) (i : Nat) (now : ℚ) : RateLimiter :=
  ⟨fun j => if j.val = i then (limiter.shards j).filterMap fun _ bucket => some (bucket.replenish now)
    else limiter.shards j⟩

end RateLimiter

/-! ### Runs -/

inductive RateEvent where
  | setUserLimit (userId : UInt32) (speedLimitBps : Nat)
  | allow (userId : UInt32) (bytes : Nat)
  /-- `throttle` is called. -/
  | throttle (userId : UInt32) (bytes : Nat)
  /-- This call of `throttle` takes a round. -/
  | round (caller : Nat)
  /-- `prune_idle` is called and reads the clock. -/
  | pruneIdle
  /-- This call of `prune_idle` takes the lock of its next shard. -/
  | pruneShard (caller : Nat)

/-- The limiter and those that are in it: the calls of `throttle` with the bytes that
remain, and the calls of `prune_idle` with the time that was read and the next shard. -/
structure RateRun where
  limiter : RateLimiter
  clock : ℚ
  throttles : List (UInt32 × Nat)
  prunes : List (ℚ × Nat)

namespace RateRun

def start (now : ℚ) : RateRun := ⟨.new, now, [], []⟩

/-- One step, at a time that is not before the last one. -/
def step (s : RateRun) (event : ℚ × RateEvent) : Option RateRun :=
  let (now, e) := event
  if now < s.clock then none
  else
    match e with
    | .setUserLimit userId speedLimitBps =>
        some { s with clock := now, limiter := s.limiter.setUserLimit userId speedLimitBps now }
    | .allow userId bytes => some { s with clock := now, limiter := (s.limiter.allow userId bytes now).2 }
    | .throttle userId bytes => some { s with clock := now, throttles := s.throttles ++ [(userId, bytes)] }
    | .round caller =>
        s.throttles[caller]?.bind fun (userId, remaining) =>
          if remaining = 0 then none
          else
            let (round, limiter) := s.limiter.throttleRound userId remaining now
            some { s with
              clock := now
              limiter := limiter
              throttles := s.throttles.set caller (userId, remaining - round.bytes remaining) }
    | .pruneIdle => some { s with clock := now, prunes := s.prunes ++ [(now, 0)] }
    | .pruneShard caller =>
        s.prunes[caller]?.bind fun (read, i) =>
          if i < 32 then
            some { s with
              clock := now
              limiter := s.limiter.pruneShard i read
              prunes := s.prunes.set caller (read, i + 1) }
          else none

/-- The bytes that a step grants to a user. -/
def granted (userId : UInt32) (s : RateRun) (event : ℚ × RateEvent) : Nat :=
  match event.2 with
  | .allow user bytes => if user = userId ∧ (s.limiter.allow user bytes event.1).1 then bytes else 0
  | .round caller =>
      match s.throttles[caller]? with
      | some (user, remaining) =>
          if user = userId then (s.limiter.throttleRound user remaining event.1).1.bytes remaining else 0
      | none => 0
  | _ => 0

/-- The bytes that are granted to a user in a run, at times from `start` to `stop`. -/
def grantedIn (userId : UInt32) (start stop : ℚ) : RateRun → List (ℚ × RateEvent) → Nat
  | _, [] => 0
  | s, event :: events =>
      match s.step event with
      | some s' =>
          (if start ≤ event.1 ∧ event.1 ≤ stop then s.granted userId event else 0) +
            grantedIn userId start stop s' events
      | none => 0

end RateRun

open TokenBucket RateLimiter

/-! ### Sound buckets -/

/-- A bucket as it is at this time. -/
structure TokenBucket.Sound (bucket : TokenBucket) (clock : ℚ) : Prop where
  rate_pos : 0 < bucket.ratePerSec
  capacity_eq : bucket.capacity = capacityFor bucket.ratePerSec
  tokens_nonneg : 0 ≤ bucket.tokens
  tokens_le : bucket.tokens ≤ bucket.capacity
  last_le : bucket.lastUpdate ≤ clock

namespace TokenBucket

variable {bucket : TokenBucket} {clock now : ℚ}

theorem capacityFor_nonneg (rate : ℚ) : 0 ≤ capacityFor rate :=
  le_trans (by norm_num) (le_max_right _ _)

theorem durationSince_nonneg (now earlier : ℚ) : 0 ≤ durationSince now earlier := le_max_right _ _

theorem durationSince_of_le {earlier : ℚ} (h : earlier ≤ now) : durationSince now earlier = now - earlier :=
  max_eq_left (sub_nonneg.mpr h)

theorem Sound.later (h : bucket.Sound clock) {clock' : ℚ} (hle : clock ≤ clock') : bucket.Sound clock' :=
  { h with last_le := h.last_le.trans hle }

theorem sound_new {rate : Nat} (hrate : 0 < rate) (now : ℚ) : (new rate now).Sound now where
  rate_pos := Nat.cast_pos.mpr hrate
  capacity_eq := rfl
  tokens_nonneg := capacityFor_nonneg _
  tokens_le := le_refl _
  last_le := le_refl _

theorem Sound.replenish (h : bucket.Sound clock) (hnow : now ≤ clock) : (bucket.replenish now).Sound clock where
  rate_pos := h.rate_pos
  capacity_eq := h.capacity_eq
  tokens_nonneg := by
    have hgain : 0 ≤ durationSince now bucket.lastUpdate * bucket.ratePerSec :=
      mul_nonneg (durationSince_nonneg _ _) h.rate_pos.le
    have hcapacity : 0 ≤ bucket.capacity := h.tokens_nonneg.trans h.tokens_le
    exact le_min (add_nonneg h.tokens_nonneg hgain) hcapacity
  tokens_le := min_le_right _ _
  last_le := hnow

theorem Sound.tryConsume (h : bucket.Sound clock) (hnow : now ≤ clock) (amount : Nat) :
    (bucket.tryConsume amount now).2.Sound clock := by
  have hfull := h.replenish hnow
  rw [TokenBucket.tryConsume]
  split
  · rename_i hle
    have hamount : (0 : ℚ) ≤ amount := Nat.cast_nonneg _
    exact { hfull with
      tokens_nonneg := sub_nonneg.mpr hle
      tokens_le := (sub_le_self _ hamount).trans hfull.tokens_le }
  · exact hfull

theorem Sound.limit (h : bucket.Sound clock) (hnow : now ≤ clock) {rate : Nat} (hrate : 0 < rate) :
    (bucket.limit rate now).Sound clock where
  rate_pos := Nat.cast_pos.mpr hrate
  capacity_eq := rfl
  tokens_nonneg := le_min (h.replenish hnow).tokens_nonneg (capacityFor_nonneg _)
  tokens_le := min_le_right _ _
  last_le := hnow

end TokenBucket

/-! ### What a step does to the bucket of a user -/

/-- What this step does to the bucket of the user, and how many bytes it grants. -/
inductive Change (userId : UInt32) (prunes : List (ℚ × Nat)) (now : ℚ) :
    RateEvent → Option TokenBucket → Nat → Option TokenBucket → Prop
  | same {e : RateEvent} (bucket : Option TokenBucket) : Change userId prunes now e bucket 0 bucket
  | unlimited {e : RateEvent} (amount : Nat) : Change userId prunes now e none amount none
  | created {rate : Nat} : 0 < rate →
      Change userId prunes now (.setUserLimit userId rate) none 0 (some (.new rate now))
  | limited {rate : Nat} (bucket : TokenBucket) : 0 < rate →
      Change userId prunes now (.setUserLimit userId rate) (some bucket) 0 (some (bucket.limit rate now))
  | removed (bucket : Option TokenBucket) :
      Change userId prunes now (.setUserLimit userId 0) bucket 0 none
  | consumed {e : RateEvent} (bucket : TokenBucket) (amount : Nat) :
      Change userId prunes now e (some bucket) (if (bucket.tryConsume amount now).1 then amount else 0)
        (some (bucket.tryConsume amount now).2)
  | pruned {caller : Nat} {read : ℚ} (bucket : TokenBucket) :
      prunes[caller]? = some (read, (shardIdx userId).val) →
        Change userId prunes now (.pruneShard caller) (some bucket) 0 (some (bucket.replenish read))

namespace RateLimiter

variable {limiter : RateLimiter} {userId user : UInt32}

/-- A change in the shard of one user that leaves the others alone. -/
theorem bucket_modify {f : AssocMap UInt32 TokenBucket → AssocMap UInt32 TokenBucket}
    (hf : ∀ shard, user ≠ userId → (f shard).get userId = shard.get userId) :
    (limiter.modify user f).bucket userId =
      if user = userId then (f (limiter.shards (shardIdx userId))).get userId else limiter.bucket userId := by
  rw [bucket, bucket, modify]
  dsimp only
  by_cases huser : user = userId
  · rw [if_pos huser, huser, if_pos rfl]
  · rw [if_neg huser]
    split
    · exact hf _ huser
    · rfl

theorem bucket_insert (b : TokenBucket) :
    (limiter.modify user fun shard => shard.insert user b).bucket userId =
      if user = userId then some b else limiter.bucket userId := by
  rw [bucket_modify fun shard hne => AssocMap.get_insert_ne shard b (Ne.symm hne)]
  by_cases huser : user = userId
  · rw [if_pos huser, if_pos huser, huser, AssocMap.get_insert_self]
  · rw [if_neg huser, if_neg huser]

variable {prunes : List (ℚ × Nat)} {now : ℚ}

theorem change_setUserLimit (rate : Nat) :
    Change userId prunes now (.setUserLimit user rate) (limiter.bucket userId) 0
      ((limiter.setUserLimit user rate now).bucket userId) := by
  rw [setUserLimit, bucket_modify]
  · by_cases huser : user = userId
    · subst huser
      rw [if_pos rfl]
      by_cases hrate : 0 < rate
      · rw [if_pos hrate]
        cases hbucket : (limiter.shards (shardIdx user)).get user with
        | none =>
            dsimp only
            rw [AssocMap.get_insert_self, show limiter.bucket user = none from hbucket]
            exact .created hrate
        | some b =>
            dsimp only
            rw [AssocMap.get_insert_self, show limiter.bucket user = some b from hbucket]
            exact .limited b hrate
      · obtain rfl : rate = 0 := by omega
        rw [if_neg hrate, AssocMap.get_erase_self]
        exact .removed _
    · rw [if_neg huser]
      exact .same _
  · intro shard hne
    split
    · split
      · exact AssocMap.get_insert_ne shard _ (Ne.symm hne)
      · exact AssocMap.get_insert_ne shard _ (Ne.symm hne)
    · exact AssocMap.get_erase_ne shard (Ne.symm hne)

theorem change_allow {e : RateEvent} (bytes : Nat) :
    Change userId prunes now e (limiter.bucket userId)
      (if user = userId ∧ (limiter.allow user bytes now).1 then bytes else 0)
      ((limiter.allow user bytes now).2.bucket userId) := by
  rw [allow]
  cases hbucket : limiter.bucket user with
  | none =>
      dsimp only
      by_cases huser : user = userId
      · subst huser
        rw [if_pos ⟨rfl, rfl⟩, hbucket]
        exact .unlimited bytes
      · rw [if_neg fun h => huser h.1]
        exact .same _
  | some b =>
      dsimp only
      rw [bucket_insert]
      by_cases huser : user = userId
      · subst huser
        rw [if_pos rfl, hbucket]
        simp only [true_and]
        exact .consumed b bytes
      · rw [if_neg huser, if_neg fun h => huser h.1]
        exact .same _

theorem change_throttleRound {e : RateEvent} (remaining : Nat) :
    Change userId prunes now e (limiter.bucket userId)
      (if user = userId then (limiter.throttleRound user remaining now).1.bytes remaining else 0)
      ((limiter.throttleRound user remaining now).2.bucket userId) := by
  rw [throttleRound]
  cases hbucket : limiter.bucket user with
  | none =>
      dsimp only
      by_cases huser : user = userId
      · subst huser
        rw [if_pos rfl, hbucket]
        exact .unlimited remaining
      · rw [if_neg huser]
        exact .same _
  | some b =>
      dsimp only
      rw [bucket_insert]
      by_cases huser : user = userId
      · subst huser
        rw [if_pos rfl, if_pos rfl, hbucket]
        have hconsumed := @Change.consumed user prunes now e b (min remaining (asUsize b.capacity))
        cases hok : (b.tryConsume (min remaining (asUsize b.capacity)) now).1 with
        | true =>
            rw [hok] at hconsumed
            exact hconsumed
        | false =>
            rw [hok] at hconsumed
            exact hconsumed
      · rw [if_neg huser, if_neg huser]
        exact .same _

theorem change_pruneShard {caller i : Nat} {read : ℚ} (hread : prunes[caller]? = some (read, i)) :
    Change userId prunes now (.pruneShard caller) (limiter.bucket userId) 0
      ((limiter.pruneShard i read).bucket userId) := by
  rw [pruneShard, bucket, bucket]
  dsimp only
  split
  · rename_i hshard
    subst hshard
    rw [AssocMap.get_filterMap]
    cases (limiter.shards (shardIdx userId)).get userId with
    | none => exact .same none
    | some b => exact .pruned b hread
  · exact .same _

end RateLimiter

namespace RateRun

variable {s s' : RateRun} {now : ℚ} {e : RateEvent}

/-- **What a step does to the bucket of a user**, and that the clock shows its time. -/
theorem change_step (userId : UInt32) (h : s.step (now, e) = some s') :
    Change userId s.prunes now e (s.limiter.bucket userId) (s.granted userId (now, e))
        (s'.limiter.bucket userId) ∧ s'.clock = now ∧ s.clock ≤ now := by
  dsimp only [step] at h
  split at h
  · cases h
  · rename_i hclock
    rw [not_lt] at hclock
    cases e with
    | setUserLimit user rate =>
        obtain rfl := Option.some.inj h
        exact ⟨change_setUserLimit rate, rfl, hclock⟩
    | allow user bytes =>
        obtain rfl := Option.some.inj h
        exact ⟨change_allow bytes, rfl, hclock⟩
    | throttle user bytes =>
        obtain rfl := Option.some.inj h
        exact ⟨.same _, rfl, hclock⟩
    | round caller =>
        obtain ⟨⟨user, remaining⟩, hcaller, hround⟩ := Option.bind_eq_some_iff.mp h
        dsimp only at hround
        split at hround
        · cases hround
        · obtain rfl := Option.some.inj hround
          rw [granted]
          dsimp only
          rw [hcaller]
          exact ⟨change_throttleRound remaining, rfl, hclock⟩
    | pruneIdle =>
        obtain rfl := Option.some.inj h
        exact ⟨.same _, rfl, hclock⟩
    | pruneShard caller =>
        obtain ⟨⟨read, i⟩, hcaller, hshard⟩ := Option.bind_eq_some_iff.mp h
        dsimp only at hshard
        split at hshard
        · obtain rfl := Option.some.inj hshard
          exact ⟨change_pruneShard hcaller, rfl, hclock⟩
        · cases hshard

/-- Who prunes in the state after a step has read a clock that is not ahead. -/
theorem prunes_step (h : s.step (now, e) = some s') (hprunes : ∀ p ∈ s.prunes, p.1 ≤ s.clock) :
    ∀ p ∈ s'.prunes, p.1 ≤ s'.clock := by
  obtain ⟨-, hclock', hclock⟩ := change_step 0 h
  have hold : ∀ p ∈ s.prunes, p.1 ≤ s'.clock := fun p hp => (hprunes p hp).trans (hclock'.symm ▸ hclock)
  dsimp only [step] at h
  rw [if_neg (not_lt.mpr hclock)] at h
  cases e with
  | setUserLimit _ _ | allow _ _ | throttle _ _ =>
      obtain rfl := Option.some.inj h
      exact hold
  | round caller =>
      obtain ⟨_, -, hround⟩ := Option.bind_eq_some_iff.mp h
      split at hround
      · cases hround
      · obtain rfl := Option.some.inj hround
        exact hold
  | pruneIdle =>
      obtain rfl := Option.some.inj h
      intro p hp
      rcases List.mem_append.mp hp with hp | hp
      · exact hold p hp
      · obtain rfl := List.mem_singleton.mp hp
        exact le_refl _
  | pruneShard caller =>
      obtain ⟨⟨read, i⟩, hcaller, hshard⟩ := Option.bind_eq_some_iff.mp h
      split at hshard
      · obtain rfl := Option.some.inj hshard
        intro p hp
        rcases List.mem_or_eq_of_mem_set hp with hp | rfl
        · exact hold p hp
        · exact hold (read, i) (List.mem_of_getElem? hcaller)
      · cases hshard

/-! ### Soundness in every state that is reached -/

/-- All buckets are sound, and nobody prunes with a time that is ahead. -/
structure Sound (s : RateRun) : Prop where
  buckets : ∀ userId bucket, s.limiter.bucket userId = some bucket → bucket.Sound s.clock
  prunes : ∀ p ∈ s.prunes, p.1 ≤ s.clock

theorem sound_start (now : ℚ) : (start now).Sound where
  buckets _ _ h := by cases h
  prunes _ h := by cases h

/-- A change of a sound bucket leaves one. -/
theorem sound_of_change {userId : UInt32} {prunes : List (ℚ × Nat)} {clock : ℚ} {b b' : Option TokenBucket}
    {amount : Nat} (h : Change userId prunes now e b amount b') (hprunes : ∀ p ∈ prunes, p.1 ≤ now)
    (hclock : clock ≤ now) (hsound : ∀ bucket ∈ b, bucket.Sound clock) :
    ∀ bucket ∈ b', bucket.Sound now := by
  intro bucket hbucket
  cases h with
  | same => exact (hsound bucket hbucket).later hclock
  | unlimited => cases hbucket
  | created hrate =>
      obtain rfl := Option.mem_some_iff.mp hbucket
      exact sound_new hrate now
  | limited old hrate =>
      obtain rfl := Option.mem_some_iff.mp hbucket
      exact ((hsound old rfl).later hclock).limit le_rfl hrate
  | removed => cases hbucket
  | consumed old amount =>
      obtain rfl := Option.mem_some_iff.mp hbucket
      exact ((hsound old rfl).later hclock).tryConsume le_rfl amount
  | pruned old hread =>
      obtain rfl := Option.mem_some_iff.mp hbucket
      exact ((hsound old rfl).later hclock).replenish (hprunes _ (List.mem_of_getElem? hread))

theorem Sound.step (h : s.Sound) (hstep : s.step (now, e) = some s') : s'.Sound where
  buckets userId bucket hbucket := by
    obtain ⟨hchange, hclock', hclock⟩ := change_step userId hstep
    have hprunes : ∀ p ∈ s.prunes, p.1 ≤ now := fun p hp => (h.prunes p hp).trans hclock
    rw [hclock']
    exact sound_of_change hchange hprunes hclock (h.buckets userId) bucket hbucket
  prunes := prunes_step hstep h.prunes

theorem Sound.exec {events : List (ℚ × RateEvent)} (h : s.Sound)
    (hrun : Run.exec RateRun.step s events = some s') : s'.Sound := by
  have hkeep : ∀ {t t' : RateRun} {event : ℚ × RateEvent}, t.Sound → t.step event = some t' → t'.Sound := by
    intro t t' event ht hstep
    obtain ⟨now, e⟩ := event
    exact ht.step hstep
  exact Run.exec_preserves hkeep hrun h

/-! ### While the rate stays the same -/

/-- The limit of this user is not set to another rate. -/
def Keeps (userId : UInt32) (rate : Nat) : RateEvent → Prop
  | .setUserLimit user speedLimitBps => user = userId → speedLimitBps = rate
  | _ => True

/-- No bucket of this user is replenished with a time before its last update. -/
def Fresh (userId : UInt32) (s : RateRun) (event : ℚ × RateEvent) : Prop :=
  match event.2 with
  | .pruneShard caller =>
      ∀ read bucket, s.prunes[caller]? = some (read, (shardIdx userId).val) →
        s.limiter.bucket userId = some bucket → bucket.lastUpdate ≤ read
  | _ => True

/-- The bucket as a budget. -/
def level (bucket : TokenBucket) : Budget.Level ℚ := ⟨bucket.tokens, bucket.lastUpdate⟩

theorem replenish_le {bucket : TokenBucket} (h : bucket.lastUpdate ≤ now) :
    (bucket.replenish now).tokens ≤ bucket.tokens + bucket.ratePerSec * (now - bucket.lastUpdate) := by
  rw [mul_comm, ← durationSince_of_le h]
  exact min_le_left _ _

/-- A bucket that is replenished has moved. -/
theorem move_replenish {bucket : TokenBucket} {clock read : ℚ} (hsound : bucket.Sound clock)
    (h : bucket.lastUpdate ≤ read) (hclock : clock ≤ now) (hread : read ≤ now) :
    Budget.Move bucket.capacity bucket.ratePerSec (level bucket) (level (bucket.replenish read)) now 0 where
  amount_nonneg := le_refl _
  left_nonneg := ((hsound.later hclock).replenish hread).tokens_nonneg
  le_capacity := by
    rw [add_zero]
    exact min_le_right _ _
  le_refilled := by
    rw [add_zero]
    exact replenish_le h
  forward := h
  last_eq hne := absurd rfl hne

theorem move_tryConsume {bucket : TokenBucket} {clock : ℚ} (hsound : bucket.Sound clock) (hclock : clock ≤ now)
    (amount : Nat) :
    Budget.Move bucket.capacity bucket.ratePerSec (level bucket) (level (bucket.tryConsume amount now).2) now
      ((if (bucket.tryConsume amount now).1 then amount else 0 : Nat) : ℚ) := by
  have hlast := hsound.last_le.trans hclock
  have hmove := move_replenish hsound hlast hclock (le_refl now)
  rw [tryConsume]
  by_cases hle : (amount : ℚ) ≤ (bucket.replenish now).tokens
  · rw [if_pos hle, if_pos rfl]
    have hrest : (bucket.replenish now).tokens - amount + amount = (bucket.replenish now).tokens + 0 := by ring
    exact
      { amount_nonneg := Nat.cast_nonneg _
        left_nonneg := sub_nonneg.mpr hle
        le_capacity := hrest.trans_le hmove.le_capacity
        le_refilled := hrest.trans_le hmove.le_refilled
        forward := hlast
        last_eq := fun _ => rfl }
  · rw [if_neg hle, if_neg Bool.false_ne_true, Nat.cast_zero]
    exact hmove

/-- **A change is a move**, if it keeps the rate and does not go back. -/
theorem move_of_change {userId : UInt32} {prunes : List (ℚ × Nat)} {clock : ℚ} {rate amount : Nat}
    {bucket : TokenBucket} {b' : Option TokenBucket}
    (h : Change userId prunes now e (some bucket) amount b') (hprunes : ∀ p ∈ prunes, p.1 ≤ now)
    (hclock : clock ≤ now) (hsound : bucket.Sound clock) (hrate : bucket.ratePerSec = rate)
    (hkeeps : Keeps userId rate e)
    (hfresh : ∀ caller read, e = .pruneShard caller → prunes[caller]? = some (read, (shardIdx userId).val) →
      bucket.lastUpdate ≤ read) :
    ∃ bucket', b' = some bucket' ∧ bucket'.ratePerSec = rate ∧
      Budget.Move (capacityFor rate) rate (level bucket) (level bucket') now amount := by
  have hcapacity : capacityFor rate = bucket.capacity := by rw [hsound.capacity_eq, hrate]
  have hlast := hsound.last_le.trans hclock
  rw [hcapacity, ← hrate]
  cases h with
  | same =>
      refine ⟨bucket, rfl, rfl, ?_⟩
      rw [Nat.cast_zero]
      exact
        { amount_nonneg := le_refl _
          left_nonneg := hsound.tokens_nonneg
          le_capacity := (add_zero _).trans_le hsound.tokens_le
          le_refilled := by rw [sub_self, mul_zero]
          forward := le_refl _
          last_eq := fun hne => absurd rfl hne }
  | @limited newRate _ hpos =>
      have hsame : newRate = rate := hkeeps rfl
      have hmove := move_replenish hsound hlast hclock (le_refl now)
      have hlevel : level (bucket.limit rate now) = level (bucket.replenish now) := by
        have htokens : min (bucket.replenish now).tokens (capacityFor rate) =
            (bucket.replenish now).tokens := min_eq_left (hcapacity ▸ min_le_right _ _)
        rw [level, level, limit, htokens]
      rw [hsame, Nat.cast_zero]
      exact ⟨_, rfl, hrate.symm, hlevel ▸ hmove⟩
  | removed =>
      have hzero : rate = 0 := (hkeeps rfl).symm
      have hpos := hsound.rate_pos
      rw [hrate, hzero, Nat.cast_zero] at hpos
      exact absurd hpos (lt_irrefl 0)
  | consumed _ amount =>
      refine ⟨_, rfl, ?_, move_tryConsume hsound hclock amount⟩
      rw [tryConsume]
      split <;> rfl
  | pruned _ hread =>
      have hmove := move_replenish hsound (hfresh _ _ rfl hread) hclock (hprunes _ (List.mem_of_getElem? hread))
      rw [Nat.cast_zero]
      exact ⟨_, rfl, rfl, hmove⟩

theorem cast_counted (first last time : ℚ) (amount : Nat) :
    ((if first ≤ time ∧ time ≤ last then amount else 0 : Nat) : ℚ) =
      Budget.counted first last time amount := by
  rw [Budget.counted]
  split
  · rfl
  · exact Nat.cast_zero

/-- What is granted within the interval, step by step, is what the account counts. -/
theorem granted_of_within {userId : UInt32} {rate : Nat} {first last : ℚ} {events : List (ℚ × RateEvent)}
    {bucket : TokenBucket} {taken : ℚ} (hsound : s.Sound) (hbucket : s.limiter.bucket userId = some bucket)
    (hrate : bucket.ratePerSec = rate)
    (hwithin : Budget.Within (capacityFor rate) rate first last (level bucket) taken)
    (hkeeps : ∀ event ∈ events, Keeps userId rate event.2)
    (hfresh : Run.Along RateRun.step (Fresh userId) s events) :
    taken + grantedIn userId first last s events ≤ capacityFor rate + rate * (last - first) := by
  -- on the events: the account of the first step is handed on to the rest
  induction events generalizing s bucket taken with
  | nil =>
      rw [grantedIn, Nat.cast_zero, add_zero]
      exact hwithin.taken_le
  | cons event events ih =>
      obtain ⟨now, e⟩ := event
      rw [grantedIn]
      cases hstep : s.step (now, e) with
      | none =>
          dsimp only
          rw [Nat.cast_zero, add_zero]
          exact hwithin.taken_le
      | some s' =>
          obtain ⟨hchange, hclock', hclock⟩ := change_step userId hstep
          have hprunes : ∀ p ∈ s.prunes, p.1 ≤ now := fun p hp => (hsound.prunes p hp).trans hclock
          have hread : ∀ caller read, e = .pruneShard caller →
              s.prunes[caller]? = some (read, (shardIdx userId).val) → bucket.lastUpdate ≤ read := by
            rintro caller read rfl hread
            exact hfresh.1 read bucket hread hbucket
          rw [hbucket] at hchange
          obtain ⟨bucket', hbucket', hrate', hmove⟩ := move_of_change hchange hprunes hclock
            (hsound.buckets userId bucket hbucket) hrate (hkeeps _ (List.mem_cons_self ..)) hread
          have hrest := ih (hsound.step hstep) hbucket' hrate' (hwithin.move (Nat.cast_nonneg rate) hmove)
            (fun event hmem => hkeeps event (List.mem_cons_of_mem _ hmem)) (hfresh.2 s' hstep)
          dsimp only
          rw [Nat.cast_add, cast_counted, ← add_assoc]
          exact hrest

/-- **The rate is bounded.**  In every run the tokens of each bucket are between nothing and
its capacity.  From each state that is reached, as long as the rate of a user stays the same
and no bucket of the user is replenished with a time before its last update, what is granted
between two times is at most the capacity and what the rate gives in between. -/
theorem granted_le {userId : UInt32} {rate : Nat} {now₀ : ℚ} {past events : List (ℚ × RateEvent)}
    (hreach : Run.exec RateRun.step (start now₀) past = some s) :
    (∀ user bucket, s.limiter.bucket user = some bucket →
        0 ≤ bucket.tokens ∧ bucket.tokens ≤ bucket.capacity) ∧
      ((s.limiter.bucket userId).map TokenBucket.ratePerSec = some (rate : ℚ) →
        (∀ event ∈ events, Keeps userId rate event.2) →
        Run.Along RateRun.step (Fresh userId) s events →
          ∀ first last : ℚ, first ≤ last →
            (grantedIn userId first last s events : ℚ) ≤ max (2 * (rate : ℚ)) 65536 + rate * (last - first)) := by
  have hsound := (sound_start now₀).exec hreach
  constructor
  · intro user bucket hbucket
    have hbucket' := hsound.buckets user bucket hbucket
    exact ⟨hbucket'.tokens_nonneg, hbucket'.tokens_le⟩
  · intro hrate hkeeps hfresh first last hinterval
    obtain ⟨bucket, hbucket, hrate⟩ := Option.map_eq_some_iff.mp hrate
    have hbucket' := hsound.buckets userId bucket hbucket
    have hcapacity : capacityFor rate = bucket.capacity := by rw [hbucket'.capacity_eq, hrate]
    have hle : (level bucket).left ≤ capacityFor rate := hbucket'.tokens_le.trans_eq hcapacity.symm
    have hwithin : Budget.Within (capacityFor rate) rate first last (level bucket) 0 :=
      Budget.within_zero (Nat.cast_nonneg rate) hinterval hbucket'.tokens_nonneg hle
    have hgranted := granted_of_within hsound hbucket hrate hwithin hkeeps hfresh
    rw [zero_add, capacityFor, mul_comm (rate : ℚ) 2] at hgranted
    exact hgranted

/-- A user with a limit of 100000. -/
def limited : RateRun := ⟨RateLimiter.new.setUserLimit 32 100000 0, 0, [], []⟩

theorem granted_le_limited :
    (grantedIn 32 0 1 limited [(0, .allow 32 200000), (1, .allow 32 100000)] : ℚ) ≤
      max (2 * ((100000 : Nat) : ℚ)) 65536 + (100000 : Nat) * (1 - 0) := by
  have hreach : Run.exec RateRun.step (start 0) [(0, .setUserLimit 32 100000)] = some limited := rfl
  have hfresh : Run.Along RateRun.step (Fresh 32) limited [(0, .allow 32 200000), (1, .allow 32 100000)] :=
    ⟨trivial, fun _ _ => ⟨trivial, fun _ _ => trivial⟩⟩
  exact (granted_le hreach).2 rfl (by simp [Keeps]) hfresh 0 1 zero_le_one

/-- A second, in which a call of `prune_idle` gets to the shard late. -/
def staleEvents : List (ℚ × RateEvent) :=
  [(0, .allow 32 200000), (0, .pruneIdle), (1, .allow 32 100000), (1, .pruneShard 0),
    (1, .allow 32 100000)]

/-- Twice the second counts. -/
theorem stale_prune_grants_more :
    Run.exec RateRun.step (start 0) [(0, .setUserLimit 32 100000)] = some limited ∧
      (limited.limiter.bucket 32).map TokenBucket.ratePerSec = some (100000 : Nat) ∧
      (∀ event ∈ staleEvents, Keeps 32 100000 event.2) ∧ (Run.exec RateRun.step limited staleEvents).isSome ∧
      grantedIn 32 0 1 limited staleEvents = 400000 ∧
      ¬ ((grantedIn 32 0 1 limited staleEvents : ℚ) ≤
          max (2 * (100000 : ℚ)) 65536 + 100000 * (1 - 0)) := by
  have hgranted : grantedIn 32 0 1 limited staleEvents = 400000 := by decide +kernel
  refine ⟨?_, ?_, ?_, ?_, hgranted, ?_⟩
  · rfl
  · rfl
  · simp [staleEvents, Keeps]
  · decide +kernel
  · rw [hgranted]
    norm_num

end RateRun

end Elise
