/-
Elise/Shadowsocks/Users.lean

The users of a Shadowsocks inbound (src/protocol/shadowsocks/server.rs), over
every sequence of `update_users` calls with one `start` in it.

`update_users` makes a credential for each user of its list, in order, and
drops those whose key another one shares.  `start` knows the real method and
makes the credentials again, but from a map by password: users with one
password string have become one there, and their order is that of the hash
map.  So after a list synced before `start` and none after it, the credentials
are those of the list if every user with a valid key is alone with its password
string and the map gives such users back in the order of the list; a list
synced after `start` is always served as it is (`served_exactly`).

Two users with the same password, which `update_users` refuses both, leave one
that is served after `start`: `shared_password_served`.
-/
import Elise.Shadowsocks.Handshake

namespace Elise

namespace Shadowsocks

structure ShadowsocksInbound where
  users : AssocMap (List Char) PanelUser
  method : Method
  index : UserIndex

variable (c : Crypto)

/-! ### The two calls -/

/-- The key of a user in the map. -/
def pwd (user : PanelUser) : List Char := user.password.getD user.uuid

/-- The credential of a user, if its key is valid. -/
def credential? (method : Method) (user : PanelUser) : Option Credential :=
  (Credential.new c user method).toOption

/-- The credentials whose key is in the list once. -/
def unshared (credentials : List Credential) : List Credential :=
  credentials.filter fun cred => credentials.countP (fun other => other.key = cred.key) = 1

/-- The users of the list whose key is valid and shared with no other. -/
def served (method : Method) (users : List PanelUser) : List Credential :=
  unshared (users.filterMap (credential? c method))

namespace ShadowsocksInbound

def new : ShadowsocksInbound := ⟨∅, .legacy .chacha20Poly1305, UserIndex.default⟩

def updateUsers (inbound : ShadowsocksInbound) (users : List PanelUser) : ShadowsocksInbound :=
  let accepted := users.filter fun u => (credential? c inbound.method u).isSome
  { users := AssocMap.ofPairs (accepted.map fun u => (pwd u, u))
    method := inbound.method
    index := UserIndex.new c (served c inbound.method users) }

/-- The calls in order. -/
def syncAll (inbound : ShadowsocksInbound) (lists : List (List PanelUser)) : ShadowsocksInbound :=
  lists.foldl (updateUsers c) inbound

/-- The users in the map, in one of the orders the hash map may give them. -/
def IsIteration (inbound : ShadowsocksInbound) (order : List PanelUser) : Prop :=
  order.Perm (inbound.users.pairs.map Prod.snd)

instance (inbound : ShadowsocksInbound) (order : List PanelUser) :
    Decidable (inbound.IsIteration order) :=
  inferInstanceAs (Decidable (order.Perm (inbound.users.pairs.map Prod.snd)))

/-- The server key of a 2022 method; an error ends `start`. -/
def readServerKey (method : Method) (serverKey : Option (List Char)) :
    Except String (Option (List UInt8)) :=
  if method.isAead2022 then
    match serverKey.filter fun key => !key.isEmpty with
    | some key => (decodeKey c key method).map some
    | none => .ok none
  else .ok none

/-- `start` up to where it serves; `order` is how the map iterates. -/
def start (inbound : ShadowsocksInbound) (method : Method) (serverKey : Option (List Char))
    (order : List PanelUser) : ShadowsocksInbound × Except String (Option (List UInt8)) :=
  let inbound := { inbound with method := method }
  match readServerKey c method serverKey with
  | .ok key => (inbound.updateUsers c order, .ok key)
  | .error e => (inbound, .error e)

end ShadowsocksInbound

open ShadowsocksInbound

/-! ### What a sync leaves -/

@[simp] theorem updateUsers_method (inbound : ShadowsocksInbound) (users : List PanelUser) :
    (inbound.updateUsers c users).method = inbound.method := rfl

theorem updateUsers_credentials (inbound : ShadowsocksInbound) (users : List PanelUser) :
    (inbound.updateUsers c users).index = UserIndex.new c (served c inbound.method users) := rfl

theorem syncAll_append_singleton (inbound : ShadowsocksInbound) (lists : List (List PanelUser))
    (users : List PanelUser) :
    inbound.syncAll c (lists ++ [users]) = (inbound.syncAll c lists).updateUsers c users := by
  simp [syncAll]

@[simp] theorem syncAll_method (inbound : ShadowsocksInbound) (lists : List (List PanelUser)) :
    (inbound.syncAll c lists).method = inbound.method := by
  induction lists using List.reverseRecOn with
  | nil => rfl
  | append_singleton lists users ih => rw [syncAll_append_singleton, updateUsers_method, ih]

/-- A key is derived from every password before 2022. -/
theorem credential?_legacy (kind : CipherKind) (user : PanelUser) :
    (credential? c (.legacy kind) user).isSome := rfl

/-- The list that was synced last; none yet is the empty list. -/
def lastList (lists : List (List PanelUser)) : List PanelUser := lists.getLast?.getD []

@[simp] theorem lastList_append_singleton (lists : List (List PanelUser))
    (users : List PanelUser) : lastList (lists ++ [users]) = users := by
  simp [lastList]

/-- Before `start` the map holds every user of the last list. -/
theorem syncAll_users (lists : List (List PanelUser)) :
    (new.syncAll c lists).users = AssocMap.ofPairs ((lastList lists).map fun u => (pwd u, u)) := by
  induction lists using List.reverseRecOn with
  | nil => rfl
  | append_singleton lists users _ =>
      have hmethod : (new.syncAll c lists).method = .legacy .chacha20Poly1305 :=
        syncAll_method c new lists
      have hall : users.filter (fun u =>
          (credential? c (.legacy .chacha20Poly1305) u).isSome) = users := by
        apply List.filter_eq_self.mpr
        intro u _
        exact credential?_legacy c _ u
      rw [syncAll_append_singleton, updateUsers, hmethod, hall, lastList_append_singleton]

/-- A sync serves its list. -/
theorem syncAll_index (inbound : ShadowsocksInbound) {lists : List (List PanelUser)}
    (hne : lists ≠ []) :
    (inbound.syncAll c lists).index =
      UserIndex.new c (served c inbound.method (lastList lists)) := by
  induction lists using List.reverseRecOn with
  | nil => exact absurd rfl hne
  | append_singleton lists users _ =>
      rw [syncAll_append_singleton, updateUsers_credentials, syncAll_method,
        lastList_append_singleton]

/-! ### What `start` leaves -/

/-- The map loses nothing that the method serves, and gives it back in order. -/
structure CleanStart (method : Method) (serverKey : Option (List Char)) (users : List PanelUser)
    (order : List PanelUser) : Prop where
  readable : (readServerKey c method serverKey).isOk
  /-- A user with a valid key is alone with its password string. -/
  alone : users.Pairwise fun u v => pwd u = pwd v →
    (credential? c method u).isNone ∧ (credential? c method v).isNone
  inOrder : (order.filter fun u => (credential? c method u).isSome).Sublist users

section CleanStart

variable {c} {method : Method} {serverKey : Option (List Char)} {users order : List PanelUser}

/-- Two users with one password string, of which one has a valid key, are the
same. -/
theorem CleanStart.eq_of_pwd (h : CleanStart c method serverKey users order) {u v : PanelUser}
    (hu : u ∈ users) (hv : v ∈ users) (hvalid : (credential? c method u).isSome)
    (hpwd : pwd v = pwd u) : v = u := by
  have hsymm : Std.Symm fun u v => pwd u = pwd v →
      (credential? c method u).isNone ∧ (credential? c method v).isNone :=
    ⟨fun _ _ hR heq => (hR heq.symm).symm⟩
  by_contra hne
  have hnone := (h.alone.forall hv hu hne hpwd).2
  simp [Option.isNone_iff_eq_none.mp hnone] at hvalid

theorem CleanStart.mem_order (h : CleanStart c method serverKey users order)
    (horder : order.Perm ((AssocMap.ofPairs (users.map fun u => (pwd u, u))).pairs.map Prod.snd))
    {u : PanelUser} (hu : u ∈ users) (hvalid : (credential? c method u).isSome) : u ∈ order := by
  apply horder.mem_iff.mpr
  rcases hget : (AssocMap.ofPairs (users.map fun u => (pwd u, u))).get (pwd u) with - | v
  · rw [AssocMap.get_ofPairs_eq_none, List.map_map] at hget
    exact absurd (List.mem_map_of_mem hu) hget
  · obtain ⟨v', hv', heq⟩ := List.mem_map.mp (AssocMap.mem_of_get_ofPairs hget)
    obtain ⟨hpwd, rfl⟩ := Prod.mk.injEq .. ▸ heq
    obtain rfl := h.eq_of_pwd hu hv' hvalid hpwd
    exact List.mem_map.mpr ⟨(pwd v', v'), AssocMap.mem_pairs.mpr hget, rfl⟩

/-- The users with a valid key are those of the list, in its order. -/
theorem CleanStart.filter_order (h : CleanStart c method serverKey users order)
    (horder : order.Perm ((AssocMap.ofPairs (users.map fun u => (pwd u, u))).pairs.map Prod.snd)) :
    (order.filter fun u => (credential? c method u).isSome) =
      users.filter fun u => (credential? c method u).isSome := by
  have hsub := h.inOrder.filter fun u => (credential? c method u).isSome
  rw [List.filter_filter] at hsub
  simp only [Bool.and_self] at hsub
  refine hsub.eq_of_length_le ?_
  -- the valid users are pairwise different, and all of them are in the map
  have hnodup : (users.filter fun u => (credential? c method u).isSome).Nodup := by
    apply List.Pairwise.imp_of_mem _ (h.alone.filter _)
    rintro u v hu hv hR rfl
    have hvalid := (List.mem_filter.mp hu).2
    simp [Option.isNone_iff_eq_none.mp (hR rfl).1] at hvalid
  have hsubset : (users.filter fun u => (credential? c method u).isSome) ⊆
      order.filter fun u => (credential? c method u).isSome := by
    intro u hu
    obtain ⟨hmem, hvalid⟩ := List.mem_filter.mp hu
    exact List.mem_filter.mpr ⟨h.mem_order horder hmem hvalid, hvalid⟩
  exact (List.subperm_of_subset hnodup hsubset).length_le

theorem filterMap_eq_of_filter {f : PanelUser → Option Credential} {us vs : List PanelUser}
    (h : (us.filter fun u => (f u).isSome) = vs.filter fun u => (f u).isSome) :
    us.filterMap f = vs.filterMap f := by
  have hdrop : ∀ ws : List PanelUser, (ws.filter fun u => (f u).isSome).filterMap f =
      ws.filterMap f := by
    intro ws
    rw [List.filterMap_filter]
    congr 1
    funext u
    cases f u <;> rfl
  rw [← hdrop us, ← hdrop vs, h]

/-- A clean start serves the last list. -/
theorem CleanStart.start_index {before : List (List PanelUser)}
    (h : CleanStart c method serverKey (lastList before) order)
    (horder : (new.syncAll c before).IsIteration order) :
    ((new.syncAll c before).start c method serverKey order).1.index =
      UserIndex.new c (served c method (lastList before)) := by
  rw [IsIteration, syncAll_users] at horder
  rcases hkey : readServerKey c method serverKey with e | key
  · have hreadable := h.readable
    rw [hkey] at hreadable
    cases hreadable
  · simp only [start, hkey]
    rw [updateUsers_credentials, served, filterMap_eq_of_filter (h.filter_order horder), served]

end CleanStart

theorem start_method (inbound : ShadowsocksInbound) (method : Method)
    (serverKey : Option (List Char)) (order : List PanelUser) :
    (inbound.start c method serverKey order).1.method = method := by
  rw [start]
  split <;> rfl

/-! ### The users that are served -/

theorem user_mem_of_mem_served {method : Method} {users : List PanelUser} {cred : Credential}
    (h : cred ∈ served c method users) : cred.user ∈ users := by
  obtain ⟨u, hu, hcred⟩ := List.mem_filterMap.mp (List.mem_filter.mp h).1
  have hnew : Credential.new c u method = .ok cred := by
    rw [credential?] at hcred
    rcases hres : Credential.new c u method with e | cred'
    · rw [hres] at hcred
      cases hcred
    · rw [hres] at hcred
      rw [Option.some.inj hcred]
  rw [Credential.new_user c hnew]
  exact hu

/-- **Exactly the last list is served.** -/
theorem served_exactly (before after : List (List PanelUser)) (method : Method)
    (serverKey : Option (List Char)) (order : List PanelUser)
    (horder : (new.syncAll c before).IsIteration order)
    (hlist : after ≠ [] ∨ CleanStart c method serverKey (lastList before) order)
    (huser : method = .none → (lastList (before ++ after)).length = 1) :
    let inbound := ((new.syncAll c before).start c method serverKey order).1.syncAll c after
    inbound.index = UserIndex.new c (served c method (lastList (before ++ after))) ∧
      ∀ skey conn passed, handshake c method skey inbound.index conn = some passed →
        (∃ cred ∈ served c method (lastList (before ++ after)), passed.user = cred.user) ∧
          passed.user ∈ lastList (before ++ after) := by
  intro inbound
  have hindex : inbound.index =
      UserIndex.new c (served c method (lastList (before ++ after))) := by
    by_cases hafter : after = []
    · subst hafter
      rw [List.append_nil]
      exact (hlist.resolve_left (fun hne => hne rfl)).start_index horder
    · have hlast : lastList (before ++ after) = lastList after := by
        rw [lastList, List.getLast?_append_of_ne_nil _ hafter, lastList]
      rw [hlast, syncAll_index c _ hafter, start_method]
  refine ⟨hindex, ?_⟩
  intro skey conn passed hpassed
  rw [hindex] at hpassed
  have hserved : method = .none → served c method (lastList (before ++ after)) ≠ [] := by
    rintro rfl
    obtain ⟨u, hu⟩ := List.length_eq_one_iff.mp (huser rfl)
    rw [hu]
    exact List.cons_ne_nil _ _
  obtain ⟨cred, hcred, huser⟩ := handshake_user c hserved hpassed
  refine ⟨⟨cred, hcred, huser⟩, ?_⟩
  rw [huser]
  exact user_mem_of_mem_served c hcred

/-! ### Two users -/

/-- The digest of a text in a table. -/
def digestOf (table : List (List UInt8 × List UInt8)) (bytes : List UInt8) : List UInt8 :=
  ((table.find? fun entry => entry.1 = bytes).map Prod.snd).getD []

def md5Alpha : List UInt8 := [44, 23, 67, 163, 145, 48, 95, 191, 54, 125, 248, 228, 240, 105, 249, 249]

/-- The second digest of the key of `alpha`. -/
def md5Alpha2 : List UInt8 := [210, 183, 37, 134, 21, 148, 184, 46, 252, 23, 213, 48, 67, 141, 235, 10]

def md5Beta : List UInt8 := [152, 123, 202, 176, 27, 146, 158, 178, 192, 120, 119, 178, 36, 33, 92, 146]

def md5Beta2 : List UInt8 := [211, 172, 132, 18, 91, 198, 79, 213, 9, 249, 242, 206, 172, 79, 252, 94]

/-- Nothing but the digests that the passwords `alpha` and `beta` need. -/
def twoPasswords : Crypto where
  md5 := digestOf
    [(Text.toUtf8 "alpha".toList, md5Alpha),
      (md5Alpha ++ Text.toUtf8 "alpha".toList, md5Alpha2),
      (Text.toUtf8 "beta".toList, md5Beta),
      (md5Beta ++ Text.toUtf8 "beta".toList, md5Beta2)]
  blake3 := digestOf
    [(md5Alpha,
        [110, 117, 76, 203, 8, 44, 7, 235, 51, 67, 67, 4, 253, 236, 207, 133,
          74, 7, 255, 241, 191, 163, 170, 8, 128, 231, 64, 248, 17, 140, 234, 40]),
      (md5Alpha ++ md5Alpha2,
        [177, 46, 161, 217, 121, 216, 130, 194, 199, 156, 142, 115, 247, 217, 65, 163,
          52, 7, 61, 25, 39, 22, 195, 243, 61, 214, 124, 73, 221, 193, 6, 60]),
      (md5Beta,
        [235, 183, 166, 90, 215, 203, 174, 218, 78, 47, 113, 92, 250, 119, 68, 109,
          162, 85, 63, 229, 181, 43, 138, 152, 198, 104, 169, 64, 230, 122, 66, 63]),
      (md5Beta ++ md5Beta2,
        [253, 203, 121, 34, 251, 55, 233, 3, 108, 53, 87, 178, 123, 65, 73, 221,
          193, 94, 87, 89, 108, 163, 88, 106, 53, 252, 155, 238, 169, 86, 12, 226])]
  hkdfSha1 _ _ _ := []
  deriveIdentity _ := []
  aesDecrypt _ _ := []
  aeadOpen _ _ _ _ := none
  tcpOpen _ _ _ _ _ := none
  udpOpen _ _ _ _ _ := none
  isUuid _ := false
  base64 _ := none
  base64Url _ := none
  readAddress _ := none
  parseIp _ := none

def userWith (id : UInt32) (password : String) : PanelUser :=
  { PanelUser.default with id := id, password := some password.toList }

/-- Two users with passwords of their own, synced before `start`. -/
theorem two_users_served :
    let inbound := (new.syncAll twoPasswords [[userWith 1 "alpha", userWith 2 "beta"]]).start
      twoPasswords (.legacy .aes128Gcm) none [userWith 1 "alpha", userWith 2 "beta"]
    (inbound.1.index.credentials.map fun cred => (cred.user.id, cred.key)) =
      [(1, md5Alpha), (2, md5Beta)] := by
  intro inbound
  have hclean : CleanStart twoPasswords (.legacy .aes128Gcm) none
      [userWith 1 "alpha", userWith 2 "beta"] [userWith 1 "alpha", userWith 2 "beta"] := by
    refine ⟨rfl, ?_, ?_⟩
    · rw [List.pairwise_pair]
      intro heq
      exact absurd heq (by decide)
    · exact List.filter_sublist
  have hserved := (served_exactly twoPasswords [[userWith 1 "alpha", userWith 2 "beta"]] []
    (.legacy .aes128Gcm) none [userWith 1 "alpha", userWith 2 "beta"] (by decide +kernel)
    (.inr hclean) (by decide)).1
  change inbound.1.index = _ at hserved
  rw [hserved]
  decide +kernel

/-- The password of both users is `alpha`, and one of them is served; there is
no user, and a connection passes as the default user. -/
theorem shared_password_served :
    (new.syncAll twoPasswords [[userWith 1 "alpha", userWith 2 "alpha"]]).IsIteration
        [userWith 2 "alpha"] ∧
      ((new.syncAll twoPasswords [[userWith 1 "alpha", userWith 2 "alpha"]]).start twoPasswords
          (.legacy .aes128Gcm) none [userWith 2 "alpha"]).1.index.credentials ≠
        served twoPasswords (.legacy .aes128Gcm) [userWith 1 "alpha", userWith 2 "alpha"] ∧
      ((handshake twoPasswords .none none
          ((new.syncAll twoPasswords [[]]).start twoPasswords .none none []).1.index
          ⟨[1, 192, 0, 2, 10, 0, 80], some 0, none, fun _ => true⟩).map (·.user)) =
        some .default := by
  refine ⟨by decide +kernel, by decide +kernel, by decide +kernel⟩

end Shadowsocks

end Elise
