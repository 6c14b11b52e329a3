/-
# gen_vhostonreg: a vhost for every account

An account that is registered gets the vhost `name.suffix`. Characters that
no host name may have are dropped, and the name is cut to the room the suffix
leaves; a name that is changed so is numbered, `name-NNNNN.suffix`, for the
vhosts to be unique. But a name that is used as it is may end in a number as
well, and then it is the vhost of another account as soon as the counter gets
there (`vhost_taken`). Short of that the vhosts are unique
(`vhosts_unique_iff`): names that are used as they are differ, and the counter
does not come back within 100000 registrations. A suffix so long that the room
for the name wraps around may also cut two numbers to the same vhost (`Cut`).

Where the suffix leaves room for nine characters the vhost is whole; how much
it leaves is computed as an int, which comes out right unless the suffix is
longer than an int can count (`user_add_host_iff`).

Key definitions: `Config`, `State`, `userAddHost`, `handleVerifyRegister`,
`turns`, `Clash`, `Cut`, `Labelled`, `Fits`.
Key theorems: `userAddHost_eq`, `cloaks_register`, `vhosts_unique_iff`,
`vhost_taken`, `not_cut_of_roomy`, `user_add_host_iff`.
-/
import AthemeContrib.Command
import Mathlib.Logic.Function.Iterate

namespace AthemeContrib
namespace Vhostonreg

open CStr

/-- What the module reads of the core: `COMPAT_HOSTLEN`, `me.hidehostsuffix`,
and of NickServ, if it is loaded, `no_nick_ownership` and whether it has a
command `GROUP`. -/
structure Config where
  hostlen : ℕ
  hidehostsuffix : Option CStr
  nicksvs : Option (Bool × Bool)
  /-- It is an int. -/
  hostlen_lt : hostlen < 2 ^ 31

/-- `counter`, the accounts' `private:usercloak` metadata, what has been sent,
and whether something was written past the end of `newhost`. -/
structure State where
  counter : Fin 100000
  usercloak : List (CStr × CStr)
  out : List Output
  overrun : Bool

def VALID_SPECIALS : CStr := ['-']

/-- `isalnum(*p) || strchr(VALID_SPECIALS, *p)` -/
def valid (c : Char) : Bool := isalnum c || c ∈ VALID_SPECIALS

/-- The loop of `user_add_host`, with room for `room` characters: what it
copies, where it stops, and `invalidchar`. -/
def copyLoop : ℕ → CStr → CStr × CStr × Bool
  | 0, p => ([], p, false)
  | _ + 1, [] => ([], [], false)
  | room + 1, c :: p =>
    if valid c then
      let (newhost, p, invalidchar) := copyLoop room p
      (c :: newhost, p, invalidchar)
    else
      let (newhost, p, _) := copyLoop (room + 1) p
      (newhost, p, true)

/-- `counter++; if (counter >= 100000) counter = 0;` -/
def nextCounter (counter : Fin 100000) : Fin 100000 :=
  ⟨if 100000 ≤ counter.val + 1 then 0 else counter.val + 1, by split <;> omega⟩

/-- `metadata_find(mu, "private:usercloak")` -/
def State.cloak? (s : State) (mu : CStr) : Option CStr := s.usercloak.lookup mu

/-- `metadata_add(mu, "private:usercloak", value)`, which replaces another
value. -/
def State.addCloak (s : State) (mu value : CStr) : State :=
  { s with usercloak := s.usercloak.filter (·.1 ≠ mu) ++ [(mu, value)] }

/-- What an account is told whose name had to be changed. -/
def numberedNotices (cfg : Config) (mu : CStr) : List Output :=
  match cfg.nicksvs with
  | none => []
  | some (noNickOwnership, group) =>
    [myuserNotice mu ("Your account name cannot be used in a vhost directly. " ++
        "To ensure uniqueness, a number was added."),
      myuserNotice mu ("To avoid this, register an account name containing only letters, digits and " ++
        String.ofList VALID_SPECIALS ++ ".")] ++
    if !noNickOwnership && group then
      [myuserNotice mu s!"If you drop {String.ofList mu} you can group it to your new account."]
    else []

/-- `COMPAT_HOSTLEN - 1 - strlen(me.hidehostsuffix)`, a size_t that is put into
an int. -/
def maxlen1 (cfg : Config) (suffix : CStr) : ℤ := ((cfg.hostlen : ℤ) - 1 - suffix.length).bmod (2 ^ 32)

/-- The end of `user_add_host`: the suffix is put behind `newhost`. -/
def addHost (cfg : Config) (suffix mu newhost : CStr) (s : State) : State :=
  s.addCloak mu (strlcat (strlcat newhost ['.'] (cfg.hostlen + 1)) suffix (cfg.hostlen + 1))

/-- `user_add_host(mu)`; `newhost` has `COMPAT_HOSTLEN + 1` characters. -/
def userAddHost (cfg : Config) (suffix mu : CStr) (s : State) : State :=
  if maxlen1 cfg suffix < 9 then s
  else
    let room := (maxlen1 cfg suffix).toNat
    let (newhost, p, invalidchar) := copyLoop room mu
    if cfg.hostlen + 1 < newhost.length then { s with overrun := true }
    else if invalidchar || !p.isEmpty then
      let i := min newhost.length (room - 6)
      -- with no room for a terminator what follows reads on past the end
      if cfg.hostlen < i then { s with overrun := true }
      else
        addHost cfg suffix mu
          (newhost.take i ++ strlcpy ('-' :: decimal 5 s.counter.val) (cfg.hostlen + 1 - i))
          { s with
            counter := nextCounter s.counter
            out := s.out ++ numberedNotices cfg mu }
    else if cfg.hostlen < newhost.length then { s with overrun := true }
    else addHost cfg suffix mu newhost s

/-- `hook_user_identify(u)`, of a user logged in to `mu` -/
def hookUserIdentify (cfg : Config) (mu : CStr) (s : State) : State :=
  match cfg.hidehostsuffix with
  | none => s
  | some suffix => if (s.cloak? mu).isSome then s else userAddHost cfg suffix mu s

/-- `handle_verify_register(req)`, with as many users logged in to the account
as `logins`. -/
def handleVerifyRegister (cfg : Config) (mu : CStr) (logins : ℕ) (s : State) : State :=
  match cfg.hidehostsuffix with
  | none => s
  | some suffix => (hookUserIdentify cfg mu)^[logins] (userAddHost cfg suffix mu s)

/-- `mod_init`, at the time `currtime`. -/
def modInit (currtime : ℤ) : State :=
  let counter := ((currtime * 2 ^ 8).bmod (2 ^ 64)).tmod 100000
  ⟨⟨(if counter < 0 then counter + 100000 else counter).toNat, by
    have := Int.tmod_lt_of_pos ((currtime * 2 ^ 8).bmod (2 ^ 64)) (by omega : (0 : ℤ) < 100000)
    omega⟩, [], [], false⟩

/-- The accounts are registered one after another. -/
def register (cfg : Config) (mus : List (CStr × ℕ)) (s : State) : State :=
  mus.foldl (fun s mu => handleVerifyRegister cfg mu.1 mu.2 s) s

/-! ### One registration -/

/-- The number has to be put behind the name: a character is dropped, or the
name is longer than there is room for. -/
def Numbered (maxlen1 : ℕ) (mu : CStr) : Prop := (∃ c ∈ mu, valid c = false) ∨ maxlen1 < mu.length

instance (maxlen1 : ℕ) (mu : CStr) : Decidable (Numbered maxlen1 mu) :=
  have := List.decidableBEx (valid · = false) mu
  inferInstanceAs (Decidable ((∃ c ∈ mu, valid c = false) ∨ maxlen1 < mu.length))

/-- What is left of the name before the number. -/
def stem (maxlen1 : ℕ) (mu : CStr) : CStr := (mu.filter valid).take (maxlen1 - 6)

/-- The vhost of an account without the suffix. -/
def label (maxlen1 : ℕ) (mu : CStr) (counter : Fin 100000) : CStr :=
  if Numbered maxlen1 mu then stem maxlen1 mu ++ '-' :: decimal 5 counter.val else mu

theorem copyLoop_fst : ∀ (room : ℕ) (p : CStr), (copyLoop room p).1 = (p.filter valid).take room
  | 0, p => by simp [copyLoop]
  | _ + 1, [] => by simp [copyLoop]
  | room + 1, c :: p => by
    cases hc : valid c with
    | true => simp [copyLoop, hc, copyLoop_fst room p]
    | false => simp [copyLoop, hc, copyLoop_fst (room + 1) p]

/-- The loop stops before the end, or drops a character, exactly if the name
has to be numbered. -/
theorem copyLoop_numbered : ∀ (room : ℕ) (p : CStr),
    ((copyLoop room p).2.2 || !(copyLoop room p).2.1.isEmpty) = true ↔ Numbered room p
  | 0, [] => by simp [copyLoop, Numbered]
  | 0, c :: p => by simp [copyLoop, Numbered]
  | _ + 1, [] => by simp [copyLoop, Numbered]
  | room + 1, c :: p => by
    cases hc : valid c with
    | true =>
      have ih := copyLoop_numbered room p
      simp only [copyLoop, hc, if_true, ih]
      simp [Numbered, hc]
    | false => simp [copyLoop, Numbered, hc]

theorem label_length {maxlen1 : ℕ} (h : 6 ≤ maxlen1) (mu : CStr) (counter : Fin 100000) :
    (label maxlen1 mu counter).length ≤ maxlen1 := by
  unfold label
  split
  · have hstem : (stem maxlen1 mu).length ≤ maxlen1 - 6 := List.length_take_le _ _
    rw [List.length_append, List.length_cons, length_decimal]
    omega
  · rename_i hn
    exact Nat.le_of_not_lt fun hlt => hn (Or.inr hlt)

/-- A name that is not numbered is copied as it is. -/
theorem copy_eq_self {maxlen1 : ℕ} {mu : CStr} (h : ¬ Numbered maxlen1 mu) :
    (copyLoop maxlen1 mu).1 = mu := by
  have hvalid : mu.filter valid = mu := by
    rw [List.filter_eq_self]
    intro c hc
    by_contra hv
    exact h (Or.inl ⟨c, hc, by simpa using hv⟩)
  have hlen : mu.length ≤ maxlen1 := Nat.le_of_not_lt fun hlt => h (Or.inr hlt)
  rw [copyLoop_fst, hvalid, List.take_of_length_le hlen]

/-- There is room in `newhost` for what is written to it before the suffix. -/
def Within (cfg : Config) (room : ℕ) (mu : CStr) : Prop :=
  ((mu.filter valid).take room).length ≤ cfg.hostlen + 1 ∧
    (if Numbered room mu then stem room mu else mu).length ≤ cfg.hostlen

instance (cfg : Config) (room : ℕ) (mu : CStr) : Decidable (Within cfg room mu) :=
  inferInstanceAs (Decidable (_ ∧ _))

theorem take_take_append (n : ℕ) (l t : CStr) : (l.take n ++ t).take n = (l ++ t).take n := by
  rw [List.take_append, List.take_append, List.take_take, min_self, List.length_take]
  congr 2
  omega

/-- What `strlcat` has no room for is cut. -/
theorem strlcat_take {n : ℕ} {l : CStr} (h : l.length ≤ n) (t : CStr) :
    strlcat l t (n + 1) = (l ++ t).take n := by
  rw [strlcat, Nat.add_sub_cancel, List.take_append, List.take_of_length_le h]

theorem addHost_take (cfg : Config) (suffix mu l : CStr) (s : State) :
    addHost cfg suffix mu (l.take cfg.hostlen) s = s.addCloak mu ((l ++ '.' :: suffix).take cfg.hostlen) := by
  rw [addHost, strlcat_take (List.length_take_le _ _), strlcat_take (List.length_take_le _ _), take_take_append,
    List.append_assoc, take_take_append, List.singleton_append]

/-- The number follows what the cut leaves of the name, and is cut itself where there is no
room for it. -/
theorem numbered_take {hostlen room : ℕ} {mu : CStr} (h : (stem room mu).length ≤ hostlen)
    (counter : Fin 100000) :
    (copyLoop room mu).1.take (min (copyLoop room mu).1.length (room - 6)) ++
        strlcpy ('-' :: decimal 5 counter.val)
          (hostlen + 1 - min (copyLoop room mu).1.length (room - 6)) =
      (stem room mu ++ '-' :: decimal 5 counter.val).take hostlen := by
  rw [copyLoop_fst]
  have hstem : ((mu.filter valid).take room).take
      (min ((mu.filter valid).take room).length (room - 6)) = stem room mu := by
    rw [stem, List.take_take, List.length_take, List.take_eq_take_iff]
    omega
  have hlen : min ((mu.filter valid).take room).length (room - 6) = (stem room mu).length := by
    rw [stem, List.length_take, List.length_take]
    omega
  rw [hstem, hlen, strlcpy, List.take_append, List.take_of_length_le h]
  congr 2
  omega

/-- `maxlen1`, when it is not negative. -/
def room (cfg : Config) (suffix : CStr) : ℕ := (maxlen1 cfg suffix).toNat

/-- **What one registration stores**: the label, with the suffix behind it, cut where
`newhost` ends. -/
theorem userAddHost_eq (cfg : Config) {suffix : CStr} (h9 : 9 ≤ maxlen1 cfg suffix) (mu : CStr) (s : State) :
    ∃ out, userAddHost cfg suffix mu s =
      if Within cfg (room cfg suffix) mu then
        ({ s with
          counter := if Numbered (room cfg suffix) mu then nextCounter s.counter else s.counter
          out := out } : State).addCloak mu
            ((label (room cfg suffix) mu s.counter ++ '.' :: suffix).take cfg.hostlen)
      else { s with overrun := true } := by
  have hroom : (maxlen1 cfg suffix).toNat = room cfg suffix := rfl
  unfold userAddHost
  rw [if_neg (by omega), hroom]
  generalize room cfg suffix = room
  have hwithin : Within cfg room mu ↔ (copyLoop room mu).1.length ≤ cfg.hostlen + 1 ∧
      (if Numbered room mu then stem room mu else mu).length ≤ cfg.hostlen := by
    rw [copyLoop_fst]
    rfl
  have hstem : min (copyLoop room mu).1.length (room - 6) = (stem room mu).length := by
    rw [copyLoop_fst, stem, List.length_take, List.length_take]
    omega
  refine ⟨if Numbered room mu then s.out ++ numberedNotices cfg mu else s.out, ?_⟩
  simp only [copyLoop_numbered]
  by_cases hlong : cfg.hostlen + 1 < (copyLoop room mu).1.length
  · rw [if_pos hlong, if_neg fun h => Nat.not_lt.mpr (hwithin.mp h).1 hlong]
  rw [if_neg hlong]
  by_cases hn : Numbered room mu
  · simp only [if_pos hn] at hwithin ⊢
    by_cases hi : cfg.hostlen < (stem room mu).length
    · rw [hstem, if_pos hi, if_neg fun h => Nat.not_lt.mpr (hwithin.mp h).2 hi]
    · rw [if_neg (hstem ▸ hi), if_pos (hwithin.mpr ⟨Nat.not_lt.mp hlong, Nat.not_lt.mp hi⟩), label, if_pos hn,
        numbered_take (Nat.not_lt.mp hi), addHost_take]
  · simp only [if_neg hn] at hwithin ⊢
    rw [copy_eq_self hn] at hlong hwithin ⊢
    by_cases hi : cfg.hostlen < mu.length
    · rw [if_pos hi, if_neg fun h => Nat.not_lt.mpr (hwithin.mp h).2 hi]
    · have hmu : mu.take cfg.hostlen = mu := List.take_of_length_le (Nat.not_lt.mp hi)
      have hadd := addHost_take cfg suffix mu mu s
      rw [hmu] at hadd
      rw [if_neg hi, if_pos (hwithin.mpr ⟨Nat.not_lt.mp hlong, Nat.not_lt.mp hi⟩), label, if_neg hn, hadd]

theorem lookup_snoc {mu v : CStr} : ∀ {l : List (CStr × CStr)}, (∀ p ∈ l, p.1 ≠ mu) →
    (l ++ [(mu, v)]).lookup mu = some v
  | [], _ => by simp
  | p :: l, h => by
    have hp : (mu == p.1) = false := by simpa using fun he => h p (by simp) he.symm
    rw [List.cons_append, List.lookup_cons, hp]
    exact lookup_snoc fun q hq => h q (List.mem_cons_of_mem p hq)

@[simp] theorem cloak?_addCloak (s : State) (mu v : CStr) : (s.addCloak mu v).cloak? mu = some v :=
  lookup_snoc fun p hp => by simpa using (List.mem_filter.mp hp).2

/-- Users that are logged in change nothing: the account has its vhost. -/
theorem hookUserIdentify_iterate (cfg : Config) {mu : CStr} {s : State} (h : (s.cloak? mu).isSome) (n : ℕ) :
    (hookUserIdentify cfg mu)^[n] s = s := by
  refine Function.iterate_fixed ?_ n
  unfold hookUserIdentify
  split
  · rfl
  · rw [if_pos h]

/-- An account that has no vhost yet gets one. -/
theorem addCloak_new {s : State} {mu : CStr} (h : ∀ p ∈ s.usercloak, p.1 ≠ mu) (v : CStr) :
    (s.addCloak mu v).usercloak = s.usercloak ++ [(mu, v)] := by
  have hkeep : s.usercloak.filter (·.1 ≠ mu) = s.usercloak :=
    List.filter_eq_self.mpr fun p hp => by simpa using h p hp
  rw [State.addCloak, hkeep]

/-! ### A run of registrations -/

/-- The names that get a vhost, each with the counter at its turn. -/
def turns (cfg : Config) (room : ℕ) : Fin 100000 → List CStr → List (CStr × Fin 100000)
  | _, [] => []
  | counter, mu :: mus =>
    if Within cfg room mu then
      (mu, counter) :: turns cfg room (if Numbered room mu then nextCounter counter else counter) mus
    else turns cfg room counter mus

/-- The vhost that an account gets at its turn. -/
def vhost (cfg : Config) (suffix : CStr) (turn : CStr × Fin 100000) : CStr :=
  (label (room cfg suffix) turn.1 turn.2 ++ '.' :: suffix).take cfg.hostlen

/-- One registration: the account gets its vhost, and the counter moves on if
it is numbered. -/
theorem handleVerifyRegister_eq (cfg : Config) {suffix : CStr} (hs : cfg.hidehostsuffix = some suffix)
    (h9 : 9 ≤ maxlen1 cfg suffix) (mu : CStr) (logins : ℕ) {s : State}
    (hnew : ∀ p ∈ s.usercloak, p.1 ≠ mu) :
    (handleVerifyRegister cfg mu logins s).counter =
        (if Within cfg (room cfg suffix) mu ∧ Numbered (room cfg suffix) mu then nextCounter s.counter
        else s.counter) ∧
      (handleVerifyRegister cfg mu logins s).usercloak =
        if Within cfg (room cfg suffix) mu then s.usercloak ++ [(mu, vhost cfg suffix (mu, s.counter))]
        else s.usercloak := by
  obtain ⟨out, hadd⟩ := userAddHost_eq cfg h9 mu s
  by_cases hw : Within cfg (room cfg suffix) mu
  · simp only [hw, true_and, if_true] at hadd ⊢
    have hhas : ((userAddHost cfg suffix mu s).cloak? mu).isSome := by
      rw [hadd, cloak?_addCloak]
      rfl
    have hrun : handleVerifyRegister cfg mu logins s = userAddHost cfg suffix mu s := by
      simp only [handleVerifyRegister, hs]
      exact hookUserIdentify_iterate cfg hhas logins
    rw [hrun, hadd]
    exact ⟨rfl, addCloak_new hnew _⟩
  · simp only [hw, false_and, if_false] at hadd ⊢
    -- every user that is logged in has it written past the end once more
    have hagain : hookUserIdentify cfg mu { s with overrun := true } = { s with overrun := true } := by
      obtain ⟨out', hadd'⟩ := userAddHost_eq cfg h9 mu { s with overrun := true }
      rw [if_neg hw] at hadd'
      simp only [hookUserIdentify, hs]
      split
      · rfl
      · exact hadd'
    have hrun : handleVerifyRegister cfg mu logins s = { s with overrun := true } := by
      simp only [handleVerifyRegister, hs]
      rw [hadd]
      exact Function.iterate_fixed hagain logins
    rw [hrun]
    exact ⟨rfl, rfl⟩

/-- **What a run of registrations stores**: for each account, in turn, its
vhost. -/
theorem cloaks_register (cfg : Config) {suffix : CStr} (hs : cfg.hidehostsuffix = some suffix)
    (h9 : 9 ≤ maxlen1 cfg suffix) : ∀ {mus : List (CStr × ℕ)} {s : State},
    (mus.map Prod.fst).Nodup → (∀ p ∈ s.usercloak, p.1 ∉ mus.map Prod.fst) →
    (register cfg mus s).usercloak = s.usercloak ++
      (turns cfg (room cfg suffix) s.counter (mus.map Prod.fst)).map fun turn =>
        (turn.1, vhost cfg suffix turn)
  | [], s, _, _ => by simp [register, turns]
  | (mu, logins) :: mus, s, hnd, hnew => by
    rw [List.map_cons, List.nodup_cons] at hnd
    have hmu : ∀ p ∈ s.usercloak, p.1 ≠ mu := fun p hp he => hnew p hp (by simp [he])
    obtain ⟨hcounter, hcloak⟩ := handleVerifyRegister_eq cfg hs h9 mu logins hmu
    have hnew' : ∀ p ∈ (handleVerifyRegister cfg mu logins s).usercloak, p.1 ∉ mus.map Prod.fst := by
      intro p hp
      have hold : p ∈ s.usercloak → p.1 ∉ mus.map Prod.fst :=
        fun hp hmem => hnew p hp (List.mem_cons_of_mem mu hmem)
      rw [hcloak] at hp
      split at hp
      · rw [List.mem_append, List.mem_singleton] at hp
        rcases hp with hp | rfl
        · exact hold hp
        · exact hnd.1
      · exact hold hp
    have ih : (register cfg mus (handleVerifyRegister cfg mu logins s)).usercloak = _ :=
      cloaks_register cfg hs h9 hnd.2 hnew'
    have hcons : register cfg ((mu, logins) :: mus) s =
        register cfg mus (handleVerifyRegister cfg mu logins s) := rfl
    rw [hcons, ih, hcounter, hcloak, List.map_cons, turns]
    by_cases hw : Within cfg (room cfg suffix) mu
    · simp only [hw, true_and, if_true, List.map_cons, List.append_assoc, List.singleton_append]
    · simp only [hw, false_and, if_false]

/-- What is put in front of the suffix when the name of `q` is numbered. -/
def numberedFront (cfg : Config) (room : ℕ) (q : CStr × Fin 100000) : CStr :=
  (stem room q.1 ++ '-' :: decimal 5 q.2.val).take cfg.hostlen

/-- The vhost of `p`, which is used as it is, is the one that `q` gets with
its number. -/
def Clash (cfg : Config) (room : ℕ) (p q : CStr × Fin 100000) : Prop :=
  ¬ Numbered room p.1 ∧ Numbered room q.1 ∧ strcasecmp p.1 (numberedFront cfg room q) = true

/-- Both names are numbered, and the vhosts are the same, since there is no room for all of
the number of `q`. -/
def Cut (cfg : Config) (room : ℕ) (p q : CStr × Fin 100000) : Prop :=
  Numbered room p.1 ∧ Numbered room q.1 ∧ cfg.hostlen < (stem room q.1).length + 6 ∧
    strcasecmp (numberedFront cfg room p) (numberedFront cfg room q) = true

/-- Neither is the vhost of the other. -/
structure Apart (cfg : Config) (room : ℕ) (p q : CStr × Fin 100000) : Prop where
  clash : ¬ Clash cfg room p q ∧ ¬ Clash cfg room q p
  cut : ¬ Cut cfg room p q ∧ ¬ Cut cfg room q p

instance (cfg : Config) (room : ℕ) (p q : CStr × Fin 100000) : Decidable (Clash cfg room p q) :=
  inferInstanceAs (Decidable (_ ∧ _))

instance (cfg : Config) (room : ℕ) (p q : CStr × Fin 100000) : Decidable (Cut cfg room p q) :=
  inferInstanceAs (Decidable (_ ∧ _))

instance (cfg : Config) (room : ℕ) (p q : CStr × Fin 100000) : Decidable (Apart cfg room p q) :=
  decidable_of_iff ((¬ Clash cfg room p q ∧ ¬ Clash cfg room q p) ∧ ¬ Cut cfg room p q ∧ ¬ Cut cfg room q p)
    ⟨fun h => ⟨h.1, h.2⟩, fun h => ⟨h.1, h.2⟩⟩

theorem nextCounter_val (counter : Fin 100000) : (nextCounter counter).val = (counter.val + 1) % 100000 := by
  simp only [nextCounter]
  split <;> omega

/-- Where the counter is when a name is registered. -/
theorem turns_counter {cfg : Config} {room : ℕ} : ∀ {mus : List CStr} {counter : Fin 100000},
    ∀ q ∈ turns cfg room counter mus, ∃ k < mus.length, q.2.val = (counter.val + k) % 100000
  | [], _ => fun q hq => by cases hq
  | mu :: mus, counter => by
    intro q hq
    rw [turns] at hq
    rw [List.length_cons]
    split at hq
    · rcases List.mem_cons.mp hq with rfl | hq
      · exact ⟨0, by omega, by simp; omega⟩
      · obtain ⟨k, hk, he⟩ := turns_counter q hq
        split at he
        · rw [nextCounter_val] at he
          exact ⟨k + 1, by omega, by omega⟩
        · exact ⟨k, by omega, he⟩
    · obtain ⟨k, hk, he⟩ := turns_counter q hq
      exact ⟨k, by omega, he⟩

/-- The counter does not come back. -/
theorem turns_numbers {cfg : Config} {room : ℕ} : ∀ {mus : List CStr} {counter : Fin 100000},
    mus.length < 100000 →
    (turns cfg room counter mus).Pairwise fun p q => Numbered room p.1 → p.2 ≠ q.2
  | [], _, _ => List.Pairwise.nil
  | mu :: mus, counter, hlen => by
    rw [List.length_cons] at hlen
    rw [turns]
    split
    · refine List.Pairwise.cons ?_ (turns_numbers (by omega))
      intro q hq hn he
      rw [if_pos hn] at hq
      obtain ⟨k, hk, hval⟩ := turns_counter q hq
      have hc : counter.val = q.2.val := congrArg Fin.val he
      have hlt : counter.val < 100000 := counter.isLt
      rw [nextCounter_val] at hval
      omega
    · exact turns_numbers (by omega)

theorem turns_fst {cfg : Config} {room : ℕ} : ∀ {mus : List CStr} {counter : Fin 100000},
    ((turns cfg room counter mus).map Prod.fst).Sublist mus
  | [], _ => .slnil
  | mu :: mus, counter => by
    rw [turns]
    split
    · exact turns_fst.cons_cons mu
    · exact turns_fst.cons mu

theorem turns_within {cfg : Config} {room : ℕ} : ∀ {mus : List CStr} {counter : Fin 100000},
    ∀ p ∈ turns cfg room counter mus, Within cfg room p.1
  | [], _ => fun p hp => by cases hp
  | mu :: mus, counter => by
    intro p hp
    rw [turns] at hp
    split at hp
    · rcases List.mem_cons.mp hp with rfl | hp
      · assumption
      · exact turns_within p hp
    · exact turns_within p hp

/-- The last six characters of two numbered labels tell their numbers
apart. -/
theorem stem_number_inj {l l' : CStr} {n n' : Fin 100000}
    (h : strcasecmp (l ++ '-' :: decimal 5 n.val) (l' ++ '-' :: decimal 5 n'.val) = true) : n = n' := by
  rw [strcasecmp_iff, List.map_append, List.map_append, List.map_cons, List.map_cons, toLower_decimal,
    toLower_decimal] at h
  have hnum := (List.append_inj' h (by simp)).2
  exact Fin.ext (decimal_inj n.isLt n'.isLt (List.cons.inj hnum).2)

/-- A label has no dot, not even in lower case. -/
theorem dot_not_mem_label (room : ℕ) (mu : CStr) (counter : Fin 100000) :
    '.' ∉ (label room mu counter).map Char.toLower := by
  have hvalid : ∀ c ∈ label room mu counter, valid c = true := by
    unfold label
    intro c hc
    split at hc
    · rcases List.mem_append.mp hc with hc | hc
      · exact (List.mem_filter.mp (List.mem_of_mem_take hc)).2
      · rcases List.mem_cons.mp hc with rfl | hc
        · decide
        · rw [valid, isalnum, isdigit_decimal hc]
          rfl
    · rename_i hn
      by_contra hno
      exact hn (Or.inl ⟨c, hc, by simpa using hno⟩)
  intro hmem
  obtain ⟨c, hc, hdot⟩ := List.mem_map.mp hmem
  rw [toLower_eq_iff (by decide)] at hdot
  have hv := hvalid c hc
  rw [hdot] at hv
  exact absurd hv (by decide)

theorem takeWhile_take {sep : Char} (t : CStr) : ∀ {l : CStr} (n : ℕ), sep ∉ l →
    ((l ++ sep :: t).take n).takeWhile (· ≠ sep) = l.take n
  | [], 0, _ => rfl
  | [], n + 1, _ => by simp
  | c :: l, 0, _ => rfl
  | c :: l, n + 1, h => by
    rw [List.mem_cons, not_or] at h
    rw [List.cons_append, List.take_succ_cons, List.take_succ_cons, List.takeWhile_cons_of_pos (by simpa using Ne.symm h.1),
      takeWhile_take t n h.2]

/-- Labels are compared as far as `newhost` goes. -/
theorem strcasecmp_vhost (n : ℕ) (suffix : CStr) {l l' : CStr} (hl : '.' ∉ l.map Char.toLower)
    (hl' : '.' ∉ l'.map Char.toLower) :
    strcasecmp ((l ++ '.' :: suffix).take n) ((l' ++ '.' :: suffix).take n) =
      strcasecmp (l.take n) (l'.take n) := by
  have hdot : Char.toLower '.' = '.' := by decide
  rw [Bool.eq_iff_iff, strcasecmp_iff, strcasecmp_iff]
  simp only [List.map_take, List.map_append, List.map_cons, hdot]
  generalize l.map Char.toLower = l at hl ⊢
  generalize l'.map Char.toLower = l' at hl' ⊢
  constructor
  · intro h
    have hfront := congrArg (List.takeWhile (· ≠ '.')) h
    rwa [takeWhile_take _ n hl, takeWhile_take _ n hl'] at hfront
  · intro h
    have hlen := congrArg List.length h
    rw [List.length_take, List.length_take] at hlen
    by_cases hn : n ≤ l.length
    · rw [List.take_append_of_le_length hn, List.take_append_of_le_length (by omega), h]
    · rw [List.take_of_length_le (by omega), List.take_of_length_le (by omega)] at h
      rw [h]

theorem label_numbered {cfg : Config} {room : ℕ} {p : CStr × Fin 100000} (hn : Numbered room p.1) :
    (label room p.1 p.2).take cfg.hostlen = numberedFront cfg room p := by
  rw [label, if_pos hn, numberedFront]

/-- A name that is used as it is, is not cut. -/
theorem label_plain {cfg : Config} {room : ℕ} {p : CStr × Fin 100000} (hw : Within cfg room p.1)
    (hn : ¬ Numbered room p.1) : (label room p.1 p.2).take cfg.hostlen = p.1 := by
  have hlen := hw.2
  rw [if_neg hn] at hlen
  rw [label, if_neg hn, List.take_of_length_le hlen]

/-- Where there is room for it, a number is not cut. -/
theorem numberedFront_whole {cfg : Config} {room : ℕ} {p : CStr × Fin 100000}
    (h6 : (stem room p.1).length + 6 ≤ cfg.hostlen) :
    numberedFront cfg room p = stem room p.1 ++ '-' :: decimal 5 p.2.val := by
  rw [numberedFront, List.take_of_length_le]
  rw [List.length_append, List.length_cons, length_decimal]
  omega

/-- Two vhosts are the same only if one is the other's number, or a number is cut, as long
as names and numbers differ. -/
theorem vhost_same_iff {cfg : Config} (suffix : CStr) {p q : CStr × Fin 100000}
    (hp : Within cfg (room cfg suffix) p.1) (hq : Within cfg (room cfg suffix) q.1)
    (hname : strcasecmp p.1 q.1 = false) (hnum : Numbered (room cfg suffix) p.1 → p.2 ≠ q.2) :
    strcasecmp (vhost cfg suffix p) (vhost cfg suffix q) = false ↔ Apart cfg (room cfg suffix) p q := by
  rw [vhost, vhost, strcasecmp_vhost _ _ (dot_not_mem_label _ _ _) (dot_not_mem_label _ _ _)]
  generalize room cfg suffix = room at hp hq hnum ⊢
  by_cases hnp : Numbered room p.1
  · by_cases hnq : Numbered room q.1
    · rw [label_numbered hnp, label_numbered hnq]
      constructor
      · intro h
        refine ⟨⟨fun hc => hc.1 hnp, fun hc => hc.1 hnq⟩, fun hc => ?_, fun hc => ?_⟩
        · rw [hc.2.2.2] at h
          exact Bool.noConfusion h
        · rw [strcasecmp_comm, hc.2.2.2] at h
          exact Bool.noConfusion h
      · intro h
        by_contra hsame
        rw [Bool.not_eq_false] at hsame
        have hq6 : (stem room q.1).length + 6 ≤ cfg.hostlen :=
          Nat.le_of_not_lt fun hlt => h.cut.1 ⟨hnp, hnq, hlt, hsame⟩
        have hp6 : (stem room p.1).length + 6 ≤ cfg.hostlen :=
          Nat.le_of_not_lt fun hlt => h.cut.2 ⟨hnq, hnp, hlt, strcasecmp_comm _ _ ▸ hsame⟩
        rw [numberedFront_whole hp6, numberedFront_whole hq6] at hsame
        exact hnum hnp (stem_number_inj hsame)
    · rw [label_numbered hnp, label_plain hq hnq, strcasecmp_comm]
      constructor
      · intro h
        refine ⟨⟨fun hc => hc.1 hnp, fun hc => ?_⟩, fun hc => hnq hc.2.1, fun hc => hnq hc.1⟩
        rw [hc.2.2] at h
        exact Bool.noConfusion h
      · exact fun h => Bool.eq_false_iff.mpr fun hsame => h.clash.2 ⟨hnq, hnp, hsame⟩
  · by_cases hnq : Numbered room q.1
    · rw [label_plain hp hnp, label_numbered hnq]
      constructor
      · intro h
        refine ⟨⟨fun hc => ?_, fun hc => hc.1 hnq⟩, fun hc => hnp hc.1, fun hc => hnp hc.2.1⟩
        rw [hc.2.2] at h
        exact Bool.noConfusion h
      · exact fun h => Bool.eq_false_iff.mpr fun hsame => h.clash.1 ⟨hnp, hnq, hsame⟩
    · rw [label_plain hp hnp, label_plain hq hnq]
      exact iff_of_true hname
        ⟨⟨fun hc => hnq hc.2.1, fun hc => hnp hc.2.1⟩, fun hc => hnp hc.1, fun hc => hnq hc.1⟩

/-- **The vhosts of fewer than 100000 accounts are unique** exactly if no name
that is used as it is is what another account gets with its number, and no two
numbered names become the same because a number is cut. -/
theorem vhosts_unique_iff (cfg : Config) {suffix : CStr} (hs : cfg.hidehostsuffix = some suffix)
    (h9 : 9 ≤ maxlen1 cfg suffix) (counter : Fin 100000) (mus : List (CStr × ℕ))
    (hlen : mus.length < 100000)
    (hne : (mus.map Prod.fst).Pairwise fun a b => strcasecmp a b = false) :
    ((register cfg mus ⟨counter, [], [], false⟩).usercloak.map Prod.snd).Pairwise
        (fun a b => strcasecmp a b = false) ↔
      (turns cfg (room cfg suffix) counter (mus.map Prod.fst)).Pairwise (Apart cfg (room cfg suffix)) := by
  have hnd : (mus.map Prod.fst).Nodup := hne.imp fun {a b} h he => by simp [he, strcasecmp] at h
  have hstore : (register cfg mus ⟨counter, [], [], false⟩).usercloak = [] ++ _ :=
    cloaks_register cfg hs h9 hnd fun p hp => by cases hp
  rw [hstore, List.nil_append, List.map_map, List.pairwise_map]
  have hnames : (turns cfg (room cfg suffix) counter (mus.map Prod.fst)).Pairwise
      fun p q => strcasecmp p.1 q.1 = false := List.pairwise_map.mp (hne.sublist turns_fst)
  have hnumbers : (turns cfg (room cfg suffix) counter (mus.map Prod.fst)).Pairwise fun p q =>
      Numbered (room cfg suffix) p.1 → p.2 ≠ q.2 := turns_numbers (by rwa [List.length_map])
  have hwithin : (turns cfg (room cfg suffix) counter (mus.map Prod.fst)).Pairwise fun p q =>
      Within cfg (room cfg suffix) p.1 ∧ Within cfg (room cfg suffix) q.1 :=
    List.pairwise_of_forall_mem_list fun p hp q hq => ⟨turns_within p hp, turns_within q hq⟩
  have hsame := (hwithin.and hnames).imp₂ (fun _ _ h hnum => vhost_same_iff suffix h.1.1 h.1.2 h.2 hnum) hnumbers
  constructor
  · exact fun h => hsame.imp₂ (fun _ _ hs hd => hs.mp hd) h
  · exact fun h => hsame.imp₂ (fun _ _ hs hc => hs.mpr hc) h

/-- A network that gives out vhosts below `users.example`. -/
def usersExample : Config := ⟨63, some "users.example".toList, none, by decide⟩

theorem vhosts_unique_alice : ((register usersExample [("alice".toList, 1), ("a_".toList, 0)]
    ⟨7, [], [], false⟩).usercloak.map Prod.snd).Pairwise (fun a b => strcasecmp a b = false) :=
  (vhosts_unique_iff usersExample rfl (by decide) 7 [("alice".toList, 1), ("a_".toList, 0)] (by decide)
    (by decide)).mpr (by decide)

/-- The module is loaded when the counter starts at 0, `a-00000` is registered
and then `a_`. -/
theorem vhost_taken : strcasecmp "a-00000".toList "a_".toList = false ∧
    (register usersExample [("a-00000".toList, 0), ("a_".toList, 0)] (modInit 1700000000)).usercloak =
      [("a-00000".toList, "a-00000.users.example".toList),
        ("a_".toList, "a-00000.users.example".toList)] := by
  decide

/-! ### Every name and suffix -/

/-- The room for the name, when there is enough. -/
def nameRoom (cfg : Config) (suffix : CStr) : ℕ := cfg.hostlen - 1 - suffix.length

theorem maxlen1_eq {cfg : Config} {suffix : CStr} (h9 : 9 ≤ nameRoom cfg suffix) :
    maxlen1 cfg suffix = nameRoom cfg suffix := by
  have hlt := cfg.hostlen_lt
  unfold nameRoom at h9 ⊢
  have hsub : (cfg.hostlen : ℤ) - 1 - suffix.length = ((cfg.hostlen - 1 - suffix.length : ℕ) : ℤ) := by omega
  rw [maxlen1, hsub]
  exact Int.bmod_eq_of_le (by omega) (by omega)

/-- Where there is room nothing is cut, and nothing written past the end. -/
theorem userAddHost_roomy (cfg : Config) {suffix : CStr} (h9 : 9 ≤ nameRoom cfg suffix) (mu : CStr) (s : State) :
    ∃ out, userAddHost cfg suffix mu s =
      ({ s with
        counter := if Numbered (nameRoom cfg suffix) mu then nextCounter s.counter else s.counter
        out := out } : State).addCloak mu (label (nameRoom cfg suffix) mu s.counter ++ '.' :: suffix) := by
  have hmax := maxlen1_eq h9
  have hroom : room cfg suffix = nameRoom cfg suffix := by rw [room, hmax, Int.toNat_natCast]
  have hlt : nameRoom cfg suffix + 1 + suffix.length ≤ cfg.hostlen := by
    unfold nameRoom at h9 ⊢
    omega
  have h9' : 9 ≤ maxlen1 cfg suffix := by omega
  obtain ⟨out, hadd⟩ := userAddHost_eq cfg h9' mu s
  rw [hroom] at hadd
  generalize nameRoom cfg suffix = room at h9 hlt hadd ⊢
  have hlen := label_length (by omega : 6 ≤ room) mu s.counter
  have hwithin : Within cfg room mu := by
    have hcopy : ((mu.filter valid).take room).length ≤ room := List.length_take_le _ _
    refine ⟨by omega, ?_⟩
    unfold label at hlen
    split
    · rw [if_pos ‹_›, List.length_append] at hlen
      omega
    · rw [if_neg ‹_›] at hlen
      omega
  have hwhole : (label room mu s.counter ++ '.' :: suffix).length ≤ cfg.hostlen := by
    rw [List.length_append, List.length_cons]
    omega
  rw [if_pos hwithin, List.take_of_length_le hwhole] at hadd
  exact ⟨out, hadd⟩

/-- What is put in front of the suffix, with room for `maxlen1` characters: the
name, if it can be used, or what can be used of it and a number of five digits. -/
structure Labelled (maxlen1 : ℕ) (mu l : CStr) : Prop where
  same : (∀ c ∈ mu, valid c = true) → mu.length ≤ maxlen1 → l = mu
  numbered : ¬ ((∀ c ∈ mu, valid c = true) ∧ mu.length ≤ maxlen1) → ∃ name number,
    name <+: mu.filter valid ∧ name.length ≤ maxlen1 - 6 ∧ number.length = 5 ∧
      (∀ c ∈ number, isdigit c = true) ∧ l = name ++ '-' :: number

/-- There is room for nine characters and the dot before the suffix. -/
def Roomy (cfg : Config) (suffix : CStr) : Prop := 9 ≤ (cfg.hostlen : ℤ) - 1 - suffix.length

/-- What `user_add_host` is meant to do: where there is room it stores a host
that is whole, elsewhere nothing, and it writes nowhere else. -/
structure Fits (cfg : Config) (suffix mu : CStr) (s s' : State) : Prop where
  stored : Roomy cfg suffix → ∃ l, Labelled (nameRoom cfg suffix) mu l ∧
    (l ++ '.' :: suffix).length ≤ cfg.hostlen ∧
      s'.usercloak = (s.addCloak mu (l ++ '.' :: suffix)).usercloak
  nothing : ¬ Roomy cfg suffix → s'.usercloak = s.usercloak
  within : s'.overrun = false
  counter : s'.counter = s.counter ∨ s'.counter.val = (s.counter.val + 1) % 100000

theorem roomy_iff {cfg : Config} {suffix : CStr} : Roomy cfg suffix ↔ 9 ≤ nameRoom cfg suffix := by
  unfold Roomy nameRoom
  omega

/-- Where there is room no number is cut. -/
theorem not_cut_of_roomy {cfg : Config} {suffix : CStr} (h : Roomy cfg suffix) (p q : CStr × Fin 100000) :
    ¬ Cut cfg (room cfg suffix) p q := by
  have h9 := roomy_iff.mp h
  have hroom : room cfg suffix = nameRoom cfg suffix := by rw [room, maxlen1_eq h9, Int.toNat_natCast]
  have hstem : (stem (room cfg suffix) q.1).length ≤ room cfg suffix - 6 := List.length_take_le _ _
  intro hcut
  have hlong := hcut.2.2.1
  rw [hroom] at hstem hlong
  unfold nameRoom at h9 hstem hlong
  omega

theorem not_numbered_iff {maxlen1 : ℕ} {mu : CStr} :
    ¬ Numbered maxlen1 mu ↔ (∀ c ∈ mu, valid c = true) ∧ mu.length ≤ maxlen1 := by
  unfold Numbered
  rw [not_or, Nat.not_lt]
  simp

theorem labelled_label {maxlen1 : ℕ} (mu : CStr) (counter : Fin 100000) :
    Labelled maxlen1 mu (label maxlen1 mu counter) where
  same := fun hvalid hlen => if_neg (not_numbered_iff.mpr ⟨hvalid, hlen⟩)
  numbered := fun h => by
    rw [← not_numbered_iff, not_not] at h
    refine ⟨stem maxlen1 mu, decimal 5 counter.val, ?_, List.length_take_le _ _, length_decimal _ _, ?_,
      if_pos h⟩
    · exact List.take_prefix _ _
    · exact fun c hc => isdigit_decimal hc

/-- Where there is room everything fits. -/
theorem fits_of_roomy {cfg : Config} {suffix : CStr} (h : Roomy cfg suffix) (mu : CStr) {s : State}
    (hs : s.overrun = false) : Fits cfg suffix mu s (userAddHost cfg suffix mu s) := by
  have h9 := roomy_iff.mp h
  obtain ⟨out, hadd⟩ := userAddHost_roomy cfg h9 mu s
  have hlen := label_length (by omega : 6 ≤ nameRoom cfg suffix) mu s.counter
  have hroom : nameRoom cfg suffix + 1 + suffix.length ≤ cfg.hostlen := by
    unfold nameRoom at h9 ⊢
    omega
  rw [hadd]
  refine ⟨fun _ => ⟨_, labelled_label mu s.counter, ?_, rfl⟩, fun hno => absurd h hno, hs, ?_⟩
  · rw [List.length_append, List.length_cons]
    omega
  · show (if Numbered (nameRoom cfg suffix) mu then nextCounter s.counter else s.counter) = s.counter ∨
      (if Numbered (nameRoom cfg suffix) mu then nextCounter s.counter else s.counter).val =
        (s.counter.val + 1) % 100000
    by_cases hn : Numbered (nameRoom cfg suffix) mu
    · rw [if_pos hn]
      exact Or.inr (nextCounter_val s.counter)
    · rw [if_neg hn]
      exact Or.inl rfl

/-- Something is stored, or written past the end. -/
theorem stores_of_maxlen1 {cfg : Config} {suffix : CStr} (h : 9 ≤ maxlen1 cfg suffix) (mu : CStr)
    (counter : Fin 100000) : (userAddHost cfg suffix mu ⟨counter, [], [], false⟩).overrun = true ∨
      (userAddHost cfg suffix mu ⟨counter, [], [], false⟩).usercloak ≠ [] := by
  have hstored : ∀ newhost (s : State), (addHost cfg suffix mu newhost s).usercloak ≠ [] := by
    intro newhost s
    simp [addHost, State.addCloak]
  unfold userAddHost
  rw [if_neg (by omega)]
  simp only
  split
  · exact Or.inl rfl
  · split
    · split
      · exact Or.inl rfl
      · exact Or.inr (hstored _ _)
    · split
      · exact Or.inl rfl
      · exact Or.inr (hstored _ _)

/-- **A name and a suffix come out as they should exactly if there is room for
them, or the room is still too little when it has been put into an int.** -/
theorem user_add_host_iff (cfg : Config) (suffix mu : CStr) (counter : Fin 100000) :
    (∀ s, s.counter = counter → s.overrun = false → Fits cfg suffix mu s (userAddHost cfg suffix mu s)) ↔
      Roomy cfg suffix ∨ maxlen1 cfg suffix < 9 := by
  constructor
  · intro h
    by_contra hnot
    rw [not_or] at hnot
    have hfits := h ⟨counter, [], [], false⟩ rfl rfl
    rcases stores_of_maxlen1 (by omega : 9 ≤ maxlen1 cfg suffix) mu counter with hover | hstored
    · exact absurd (hover.symm.trans hfits.within) (by decide)
    · exact hstored (hfits.nothing hnot.1)
  · intro h s _ hs
    by_cases hroomy : Roomy cfg suffix
    · exact fits_of_roomy hroomy mu hs
    · have hsmall := h.resolve_left hroomy
      rw [userAddHost, if_pos hsmall]
      exact ⟨fun hr => absurd hr hroomy, fun _ => rfl, hs, Or.inl rfl⟩

/-- A suffix of 2 ^ 32 characters leaves 62 in an int. -/
theorem suffix_wraps : ¬ ∀ (cfg : Config) (suffix mu : CStr) (s : State), s.overrun = false →
    Fits cfg suffix mu s (userAddHost cfg suffix mu s) := by
  intro h
  have hlength : (List.replicate (2 ^ 32) 'a').length = 2 ^ 32 := List.length_replicate
  have hnot : ¬ Roomy usersExample (List.replicate (2 ^ 32) 'a') := by
    rw [Roomy, hlength]
    decide
  have hmax : 9 ≤ maxlen1 usersExample (List.replicate (2 ^ 32) 'a') := by
    rw [maxlen1, hlength]
    decide
  have hfits := h usersExample (List.replicate (2 ^ 32) 'a') "bob".toList ⟨7, [], [], false⟩ rfl
  rcases stores_of_maxlen1 hmax "bob".toList 7 with hover | hstored
  · exact absurd (hover.symm.trans hfits.within) (by decide)
  · exact hstored (hfits.nothing hnot)

end Vhostonreg
end AthemeContrib
