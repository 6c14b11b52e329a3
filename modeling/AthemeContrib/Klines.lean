/-
# The modules that ban users by themselves

Four modules set bans without being told to: `dnsbl` for a listed address,
`os_defcon` for who connects at level 1, `os_akillnicklist` for a name in its
files, and `os_klinechan` for who joins a channel on autokline. What they share
is the flag `UF_KLINESENT` of a user, which each sets with its ban and finds
before it. So however their events follow one another, nobody gets two bans
(`one_kline_each`); and who gets one is told by the event alone
(`klined_iff_caught`).

The network is the `dnsbl` module's, with the real names; whether a user is
exempt, or may join the channels, is the core's to say and comes with the event,
and so does the order in which the hooks on a new user are called. `dnsbl`'s
bans nobody, but where it reads an address that is a null pointer, the hooks behind
it are not called. `State.bans` is ghost state: who each ban was meant for.

Key definitions: `State`, `defconUseradd`, `aknlNickhook`, `klinechanCheckJoin`,
`callHooks`, `step`, `Sent`, `Caught`.
Key theorems: `step_kept`, `one_kline_each`, `klined_iff_caught`.
-/
import AthemeContrib.Defcon
import AthemeContrib.Dnsbl.Lookup
import AthemeContrib.OsAkillnicklist
import AthemeContrib.OsKlinechan

namespace AthemeContrib
namespace Klines

open CStr
open Dnsbl (User Kline)

structure State where
  dnsbl : Dnsbl.State
  defcon : Defcon.State
  lists : OsAkillnicklist.Lists
  mclist : List OsKlinechan.Mychan
  gecos : ℕ → CStr
  bans : List (ℕ × Kline)

/-- The modules as loaded. -/
def init (timeout : ℕ) : State :=
  ⟨Dnsbl.init, Defcon.init timeout [] [], .empty, [], fun _ => [], []⟩

/-- `kline_add(...); u->flags |= UF_KLINESENT;` -/
def klineAdd (u : User) (k : Kline) (s : State) : State := { s with
  dnsbl := ({ s.dnsbl with klines := s.dnsbl.klines ++ [k] } : Dnsbl.State).updUser u.id fun u =>
    { u with klinesent := true }
  bans := s.bans ++ [(u.id, k)] }

def State.send (s : State) (o : List Output) : State := { s with dnsbl := s.dnsbl.send o }

def notAccepting : String :=
  "This network is currently not accepting connections, please try again later."

/-- `defcon_useradd` -/
def defconUseradd (u : User) (s : State) : State :=
  if u.internal then s
  else if s.defcon.level = 1 then
    if !u.klinesent then klineAdd u ⟨u.user, u.host, notAccepting, 900⟩ s else s
  else s

/-- `aknl_nickhook` -/
def aknlNickhook (exempt : Bool) (u : User) (s : State) : State :=
  if u.internal then s
  else if exempt then s
  else if u.klinesent then s
  else if OsAkillnicklist.appearsSpambot s.lists u.nick u.user (s.gecos u.id) then
    klineAdd u ⟨u.user, u.host, "Possible spambot", 86400⟩ s
  else s

/-- `klinechan_check_join` -/
def klinechanCheckJoin (core : Core) (klineTime : ℕ) (chan : CStr) (exempt staff : Bool) (u : User) (s : State) :
    State :=
  if u.internal then s
  else match OsKlinechan.mychanFind core s.mclist chan with
    | none => s
    | some mc =>
      if u.klinesent then s
      else if mc.closer.isSome then
        let khost := u.ip.getD u.host
        let name := String.ofList chan
        if staff then s.send [.notice (String.ofList u.nick) s!"Warning: {name} klines normal users"]
        else if exempt then
          let hostmask := s!"{String.ofList u.nick}!{String.ofList u.user}@{String.ofList u.host}"
          let buf := s!"Not klining *@{String.ofList khost} due to klinechan {name} (user {hostmask} is exempt)"
          s.send [.wallops (String.ofList (buf.toList.take (OsAkillnicklist.BUFSIZE - 1)))]
        else
          let reason := s!"Joining {name}"
          klineAdd u ⟨['*'], khost, String.ofList (reason.toList.take 255), klineTime⟩ s
      else s

/-- A hook is called for the user `id`. -/
def hook (id : ℕ) (f : User → State → State) (s : State) : State :=
  match s.dnsbl.user? id with
  | none => s
  | some u => f u s

/-- A hook on new users. -/
inductive Hook
  | dnsbl
  | defcon
  | aknl
deriving DecidableEq, Repr

def useradd (core : Core) (exempt : Bool) : Hook → User → State → State
  | .dnsbl, u, s => { s with dnsbl := Dnsbl.checkDnsbls core u s.dnsbl }
  | .defcon, u, s => defconUseradd u s
  | .aknl, u, s => aknlNickhook exempt u s

/-- The hooks are called for the user `id`, as long as the services run. -/
def callHooks (core : Core) (exempt : Bool) (id : ℕ) : List Hook → State → State
  | [], s => s
  | h :: hooks, s =>
    if s.dnsbl.crashed then s else callHooks core exempt id hooks (hook id (useradd core exempt h) s)

inductive Event
  | connect (nick user host : CStr) (ip : Option CStr) (gecos : CStr) (internal exempt : Bool) (hooks : List Hook)
  | nickchange (id : ℕ) (nick : CStr) (exempt : Bool)
  | join (id : ℕ) (chan : CStr) (exempt staff : Bool)
  | dnsbl (e : Dnsbl.Event)
  | defcon (e : Defcon.Event)
  | nicklist (entry : OsAkillnicklist.Entry) (file : Option CStr)
  | klinechan (e : OsKlinechan.Event)

/-- The user of the lookup that the event answers. -/
def answered (s : Dnsbl.State) : Dnsbl.Event → Option ℕ
  | .reply id _ _ => (s.lookup? id).bind (·.u)
  | _ => none

/-- The bans of an event of `dnsbl` are for the user of the lookup. -/
def State.answer (s : State) (e : Dnsbl.Event) (d : Dnsbl.State) : State := { s with
  dnsbl := d
  bans := s.bans ++ (d.klines.drop s.dnsbl.klines.length).flatMap fun k =>
    (answered s.dnsbl e).toList.map fun u => (u, k) }

/-- What an event makes of a state in which the services run. -/
def handle (core : Core) (klineTime : ℕ) (s : State) : Event → Option State
  | .connect nick user host ip gecos internal exempt hooks =>
    let u := Dnsbl.newUser s.dnsbl nick user host ip internal
    some (callHooks core exempt u.id hooks
      { s with dnsbl := s.dnsbl.addUser u, gecos := Function.update s.gecos u.id gecos })
  | .nickchange id nick exempt =>
    some (hook id (aknlNickhook exempt) { s with dnsbl := s.dnsbl.updUser id fun u => { u with nick := nick } })
  | .join id chan exempt staff => some (hook id (klinechanCheckJoin core klineTime chan exempt staff) s)
  | .dnsbl e =>
    match e with
    | .connect .. => none
    | e => (Dnsbl.step core s.dnsbl e).map (s.answer e)
  | .defcon e => (Defcon.step s.defcon e).map fun d => { s with defcon := d }
  | .nicklist entry file => some { s with lists := OsAkillnicklist.configHandler entry file s.lists }
  | .klinechan e => (OsKlinechan.step core s.mclist e).map fun mclist => { s with mclist := mclist }

def step (core : Core) (klineTime : ℕ) (s : State) (e : Event) : Option State :=
  if s.dnsbl.crashed then none else handle core klineTime s e

/-- Who is on the network, and who has been sent a ban. -/
def flags (d : Dnsbl.State) : List (ℕ × Bool) := d.users.map fun u => (u.id, u.klinesent)

/-- `check_dnsbls` reads the address of a user that is no service. -/
def readsAddress (d : Dnsbl.State) : Bool :=
  d.action.isSome && !(d.dnsblElist.isEmpty && d.blacklistList.isEmpty)

/-- The hooks that are called for a user with this address: where it is read and there
is none, those in front of `dnsbl`'s. -/
def called (d : Dnsbl.State) (ip : Option CStr) (hooks : List Hook) : List Hook :=
  if ip.isNone && readsAddress d then hooks.takeWhile (· ≠ .dnsbl) else hooks

/-- The event is one that bans the user `id`, if it has no ban. -/
def Caught (core : Core) (s : State) (id : ℕ) : Event → Prop
  | .connect nick user _ ip gecos internal exempt hooks => id = s.dnsbl.next ∧ internal = false ∧
      (.defcon ∈ called s.dnsbl ip hooks ∧ s.defcon.level = 1 ∨
        .aknl ∈ called s.dnsbl ip hooks ∧ exempt = false ∧
          OsAkillnicklist.appearsSpambot s.lists nick user gecos = true)
  | .nickchange i nick exempt => id = i ∧ exempt = false ∧ ∃ u, s.dnsbl.user? i = some u ∧
      u.internal = false ∧ OsAkillnicklist.appearsSpambot s.lists nick u.user (s.gecos i) = true
  | .join i chan exempt staff => id = i ∧ exempt = false ∧ staff = false ∧
      (∃ u, s.dnsbl.user? i = some u ∧ u.internal = false) ∧
      ∃ mc, OsKlinechan.mychanFind core s.mclist chan = some mc ∧ mc.closer.isSome = true
  | .dnsbl (.reply i reply _) => Dnsbl.listed reply = true ∧
      (∃ c, s.dnsbl.lookup? i = some c ∧ c.u = some id ∧ (s.dnsbl.blacklist? c.blacklist).isSome = true) ∧
      ∃ action, s.dnsbl.action = some action ∧ strcasecmp "KLINE".toList action = true
  | _ => False

/-- No user has two bans, the bans are those that were set, and who is on the
network has the flag exactly if it has a ban. -/
structure Sent (s : State) : Prop where
  once : (s.bans.map Prod.fst).Nodup
  set : s.bans.map Prod.snd = s.dnsbl.klines
  flagged : ∀ id b, (id, b) ∈ flags s.dnsbl → (b = true ↔ id ∈ s.bans.map Prod.fst)

/-- Users and bans have numbers that were given out, each user one of its own. -/
structure Inv (s : State) : Prop extends Sent s where
  ids : ((flags s.dnsbl).map Prod.fst).Nodup
  known : ∀ p ∈ flags s.dnsbl, p.1 < s.dnsbl.next
  banned : ∀ p ∈ s.bans, p.1 < s.dnsbl.next

/-! ### The flags -/

variable {core : Core} {klineTime : ℕ} {s s' s'' : State} {d d' d'' : Dnsbl.State} {C C' : ℕ → Prop}

/-- A user as the hooks see it, whether it has a ban or not. -/
def face (u : User) : User := { u with queries := none, klinesent := false }

def faces (d : Dnsbl.State) : List User := d.users.map face

/-- What is done leaves the users as the hooks see them, their flags and the bans. -/
structure Calm (d d' : Dnsbl.State) : Prop where
  flags : flags d' = flags d
  faces : faces d' = faces d
  klines : d'.klines = d.klines
  next : d.next ≤ d'.next

theorem Calm.refl (d : Dnsbl.State) : Calm d d := ⟨rfl, rfl, rfl, le_rfl⟩

theorem Calm.trans (h : Calm d d') (h' : Calm d' d'') : Calm d d'' :=
  ⟨h'.flags.trans h.flags, h'.faces.trans h.faces, h'.klines.trans h.klines, h.next.trans h'.next⟩

/-- Every user keeps what `g` tells of it, if `f` does. -/
theorem map_updUser {β : Type} (d : Dnsbl.State) (id : ℕ) {f : User → User} {g : User → β}
    (hf : ∀ u, g (f u) = g u) : (d.updUser id f).users.map g = d.users.map g := by
  rw [Dnsbl.State.updUser, List.map_map]
  refine List.map_congr_left fun u _ => ?_
  simp only [Function.comp_apply]
  split
  · exact hf u
  · rfl

/-- Whatever its lookups, a user is the same to the hooks. -/
theorem calm_queries (d : Dnsbl.State) (id : ℕ) (q : User → Option (List ℕ)) :
    Calm d (d.updUser id fun u => { u with queries := q u }) :=
  ⟨map_updUser d id fun _ => rfl, map_updUser d id fun _ => rfl, rfl, le_rfl⟩

theorem calm_crash (d : Dnsbl.State) : Calm d d.crash := ⟨rfl, rfl, rfl, le_rfl⟩

theorem calm_initiate (blptr : ℕ) (u : User) (d : Dnsbl.State) :
    Calm d (Dnsbl.initiateBlacklistDnsquery blptr u d) := by
  unfold Dnsbl.initiateBlacklistDnsquery
  cases u.ip with
  | none => exact calm_crash d
  | some ip =>
    have hq := calm_queries { d with lookups := d.lookups ++ [⟨d.next, blptr, some u.id⟩], next := d.next + 1 }
      u.id fun v => some (Dnsbl.dnsblQueries v ++ [d.next])
    exact ⟨hq.flags, hq.faces, rfl, Nat.le_succ _⟩

theorem calm_lookupBlacklists (u : User) (d : Dnsbl.State) : Calm d (Dnsbl.lookupBlacklists u d) := by
  unfold Dnsbl.lookupBlacklists
  generalize d.blacklistList = bs
  induction bs generalizing d with
  | nil => exact .refl d
  | cons b bs ih =>
    have hround : Calm d (Dnsbl.lookupBlacklist u d b) := by
      have hb : Calm d (d.updBlacklist b.id fun b => { b with status := 0 }) := ⟨rfl, rfl, rfl, le_rfl⟩
      unfold Dnsbl.lookupBlacklist
      split
      · exact .refl d
      · exact hb.trans (calm_initiate b.id u _)
    exact hround.trans (ih _)

theorem calm_checkDnsbls (u : User) (d : Dnsbl.State) : Calm d (Dnsbl.checkDnsbls core u d) := by
  have hlook := calm_lookupBlacklists u d
  have hcrash := calm_crash d
  unfold Dnsbl.checkDnsbls
  repeat' split
  all_goals first | exact .refl d | assumption

theorem calm_osCmdDnsblscan (user : Option CStr) (d : Dnsbl.State) :
    Calm d (Dnsbl.osCmdDnsblscan core user d) := by
  unfold Dnsbl.osCmdDnsblscan
  cases user with
  | none => exact ⟨rfl, rfl, rfl, le_rfl⟩
  | some user =>
    simp only
    split
    · have h := calm_lookupBlacklists (by assumption : User) d
      split
      · exact h
      · exact h.trans ⟨rfl, rfl, rfl, le_rfl⟩
    · exact ⟨rfl, rfl, rfl, le_rfl⟩

theorem calm_osCmdSetDnsblaction (act : Option CStr) (d : Dnsbl.State) :
    Calm d (Dnsbl.osCmdSetDnsblaction act d) := by
  unfold Dnsbl.osCmdSetDnsblaction
  repeat' split
  all_goals exact ⟨rfl, rfl, rfl, le_rfl⟩

theorem calm_osCmdDnsblexempt (source : CStr) (now : ℕ) (command ip reason : Option CStr) (d : Dnsbl.State) :
    Calm d (Dnsbl.osCmdDnsblexempt core source now command ip reason d) := by
  unfold Dnsbl.osCmdDnsblexempt
  repeat' split
  all_goals exact ⟨rfl, rfl, rfl, le_rfl⟩

theorem calm_dnsblConfigHandler : ∀ (names : List CStr) (d : Dnsbl.State),
    Calm d (Dnsbl.dnsblConfigHandler names d)
  | [], d => .refl d
  | n :: names, d => by
    have hn : Calm d (Dnsbl.newBlacklist n d) := by
      unfold Dnsbl.newBlacklist
      split
      · exact ⟨rfl, rfl, rfl, le_rfl⟩
      · exact ⟨rfl, rfl, rfl, Nat.le_succ _⟩
    exact hn.trans (calm_dnsblConfigHandler names _)

theorem calm_garbageReply (b now : ℕ) (reply : Option Dnsbl.Addr) (d : Dnsbl.State) :
    Calm d (Dnsbl.garbageReply b now reply d) := by
  unfold Dnsbl.garbageReply
  repeat' split
  all_goals exact ⟨rfl, rfl, rfl, le_rfl⟩

/-! ### What a step keeps -/

/-- From `s` to `s'` the users of `C` got the flag, and no others. -/
structure Kept (s s' : State) (C : ℕ → Prop) : Prop where
  inv : Inv s'
  marked : ∀ id b, (id, b) ∈ flags s'.dnsbl → (b = true ↔ (id, true) ∈ flags s.dnsbl ∨ C id)

/-- A user has one flag. -/
theorem Inv.flag_iff (h : Inv s) {id : ℕ} {b : Bool} (hb : (id, b) ∈ flags s.dnsbl) :
    b = true ↔ (id, true) ∈ flags s.dnsbl := by
  constructor
  · rintro rfl
    exact hb
  · intro ht
    exact congrArg Prod.snd (List.inj_on_of_nodup_map h.ids hb ht rfl)

theorem Kept.congr (h : Kept s s' C) (hC : ∀ id, C id ↔ C' id) : Kept s s' C' :=
  ⟨h.inv, fun id b hb => (h.marked id b hb).trans (or_congr_right (hC id))⟩

/-- One after another, while nobody comes. -/
theorem Kept.trans (h : Kept s s' C) (h' : Kept s' s'' C')
    (hids : ∀ p ∈ flags s''.dnsbl, p.1 ∈ (flags s'.dnsbl).map Prod.fst) :
    Kept s s'' (fun id => C id ∨ C' id) where
  inv := h'.inv
  marked := by
    intro id b hb
    obtain ⟨⟨id', b'⟩, hmem, rfl⟩ := List.mem_map.mp (hids (id, b) hb)
    rw [h'.marked _ b hb, ← h.inv.flag_iff hmem, h.marked _ b' hmem, or_assoc]

/-- Nobody is banned while the flags stay. -/
theorem Inv.kept (h : Inv s) (hf : flags s'.dnsbl = flags s.dnsbl) (hk : s'.dnsbl.klines = s.dnsbl.klines)
    (hn : s.dnsbl.next ≤ s'.dnsbl.next) (hb : s'.bans = s.bans) : Kept s s' fun _ => False where
  inv :=
    { once := by rw [hb]; exact h.once
      set := by rw [hb, hk]; exact h.set
      flagged := by rw [hb, hf]; exact h.flagged
      ids := by rw [hf]; exact h.ids
      known := by rw [hf]; exact fun p hp => (h.known p hp).trans_le hn
      banned := by rw [hb]; exact fun p hp => (h.banned p hp).trans_le hn }
  marked := by
    intro id b hmem
    rw [hf] at hmem
    rw [or_false]
    exact h.flag_iff hmem

theorem Inv.calm (h : Inv s) (hc : Calm s.dnsbl s'.dnsbl) (hb : s'.bans = s.bans) : Kept s s' fun _ => False :=
  h.kept hc.flags hc.klines hc.next hb

/-- The flag of the user `u` is set. -/
def mark (u : ℕ) (p : ℕ × Bool) : ℕ × Bool := if p.1 = u then (p.1, true) else p

theorem mark_fst (u : ℕ) (p : ℕ × Bool) : (mark u p).1 = p.1 := by
  unfold mark
  split <;> rfl

/-- **A ban for who has none.** -/
theorem Inv.ban (h : Inv s) {u : ℕ} {k : Kline} (hu : (u, false) ∈ flags s.dnsbl)
    (hf : flags s'.dnsbl = (flags s.dnsbl).map (mark u)) (hk : s'.dnsbl.klines = s.dnsbl.klines ++ [k])
    (hn : s.dnsbl.next ≤ s'.dnsbl.next) (hb : s'.bans = s.bans ++ [(u, k)]) : Kept s s' (· = u) := by
  have hnew : u ∉ s.bans.map Prod.fst := fun hmem => by simpa using (h.flagged u false hu).mpr hmem
  have hfst : (flags s'.dnsbl).map Prod.fst = (flags s.dnsbl).map Prod.fst := by
    rw [hf, List.map_map]
    exact List.map_congr_left fun p _ => mark_fst u p
  have hmarked : ∀ id b, (id, b) ∈ flags s'.dnsbl → (b = true ↔ (id, true) ∈ flags s.dnsbl ∨ id = u) := by
    intro id b hmem
    rw [hf, List.mem_map] at hmem
    obtain ⟨⟨id', b'⟩, hmem, heq⟩ := hmem
    unfold mark at heq
    simp only at heq
    split at heq
    · rename_i hid
      cases heq
      simp [hid]
    · rename_i hid
      cases heq
      rw [or_iff_left hid]
      exact h.flag_iff hmem
  refine ⟨⟨⟨?_, ?_, ?_⟩, ?_, ?_, ?_⟩, hmarked⟩
  · rw [hb, List.map_append, List.nodup_append]
    refine ⟨h.once, List.nodup_singleton _, fun a ha b hb => ?_⟩
    rintro rfl
    have hau : a = u := by simpa using hb
    exact hnew (hau ▸ ha)
  · rw [hb, hk, List.map_append, h.set]
    rfl
  · intro id b hmem
    rw [hmarked id b hmem, hb, List.map_append, List.mem_append, List.map_singleton, List.mem_singleton]
    refine or_congr_left ?_
    have hold : ∃ b', (id, b') ∈ flags s.dnsbl := by
      have : id ∈ (flags s'.dnsbl).map Prod.fst := List.mem_map.mpr ⟨(id, b), hmem, rfl⟩
      rw [hfst, List.mem_map] at this
      obtain ⟨⟨id', b'⟩, hmem', rfl⟩ := this
      exact ⟨b', hmem'⟩
    obtain ⟨b', hmem'⟩ := hold
    rw [← h.flag_iff hmem', h.flagged id b' hmem']
  · rw [hfst]
    exact h.ids
  · intro p hp
    have : p.1 ∈ (flags s'.dnsbl).map Prod.fst := List.mem_map.mpr ⟨p, hp, rfl⟩
    rw [hfst, List.mem_map] at this
    obtain ⟨q, hq, hqp⟩ := this
    rw [← hqp]
    exact (h.known q hq).trans_le hn
  · intro p hp
    rw [hb] at hp
    rcases List.mem_append.mp hp with hp | hp
    · exact (h.banned p hp).trans_le hn
    · rw [List.mem_singleton.mp hp]
      exact (h.known _ hu).trans_le hn

theorem flags_marked (d : Dnsbl.State) (id : ℕ) :
    flags (d.updUser id fun u => { u with klinesent := true }) = (flags d).map (mark id) := by
  rw [flags, flags, Dnsbl.State.updUser, List.map_map, List.map_map]
  refine List.map_congr_left fun u _ => ?_
  simp only [Function.comp_apply, mark]
  split <;> rfl

/-! ### The hooks -/

/-- Nothing but the users, the bans and what is sent has changed, and whether the
services run. -/
structure Beside (s s' : State) : Prop where
  defcon : s'.defcon = s.defcon
  lists : s'.lists = s.lists
  mclist : s'.mclist = s.mclist
  gecos : s'.gecos = s.gecos
  reads : readsAddress s'.dnsbl = readsAddress s.dnsbl

theorem Beside.refl (s : State) : Beside s s := ⟨rfl, rfl, rfl, rfl, rfl⟩

/-- A hook has let the user go. -/
structure Spared (s s' : State) : Prop extends Beside s s' where
  calm : Calm s.dnsbl s'.dnsbl
  bans : s'.bans = s.bans

theorem Spared.refl (s : State) : Spared s s := ⟨.refl s, .refl _, rfl⟩

theorem Spared.send (s : State) (o : List Output) : Spared s (s.send o) :=
  ⟨⟨rfl, rfl, rfl, rfl, rfl⟩, ⟨rfl, rfl, rfl, le_rfl⟩, rfl⟩

/-- The hook `f` bans the users `P` that have no ban, and lets the others go. -/
structure BansBy (f : User → State → State) (P : State → User → Prop) : Prop where
  bans : ∀ s u, P s u ∧ u.klinesent = false ∧ (∃ k, f u s = klineAdd u k s) ∨
    (P s u → u.klinesent = true) ∧ Spared s (f u s)
  congr : ∀ {s s' u u'}, Beside s s' → face u' = face u → (P s' u' ↔ P s u)

section
variable {u u' : User} (h : face u' = face u)
include h

theorem face_id : u'.id = u.id := by simpa only [face] using congrArg User.id h
theorem face_nick : u'.nick = u.nick := by simpa only [face] using congrArg User.nick h
theorem face_user : u'.user = u.user := by simpa only [face] using congrArg User.user h
theorem face_ip : u'.ip = u.ip := by simpa only [face] using congrArg User.ip h
theorem face_internal : u'.internal = u.internal := by simpa only [face] using congrArg User.internal h

end

theorem bansBy_defcon : BansBy defconUseradd fun s u => u.internal = false ∧ s.defcon.level = 1 where
  bans := by
    intro s u
    unfold defconUseradd
    cases hi : u.internal with
    | true => exact Or.inr ⟨fun h => (by cases h.1), .refl s⟩
    | false =>
      by_cases hl : s.defcon.level = 1
      · cases hk : u.klinesent with
        | true => exact Or.inr ⟨fun _ => rfl, by rw [if_neg (by simp), if_pos hl]; exact .refl s⟩
        | false => exact Or.inl ⟨⟨rfl, hl⟩, rfl, _, by rw [if_neg (by simp), if_pos hl]; rfl⟩
      · exact Or.inr ⟨fun h => absurd h.2 hl, by rw [if_neg (by simp), if_neg hl]; exact .refl s⟩
  congr := by
    intro s s' u u' hb hu
    rw [face_internal hu, hb.defcon]

theorem bansBy_aknl (exempt : Bool) :
    BansBy (aknlNickhook exempt) fun s u => u.internal = false ∧ exempt = false ∧
      OsAkillnicklist.appearsSpambot s.lists u.nick u.user (s.gecos u.id) = true where
  bans := by
    intro s u
    unfold aknlNickhook
    cases hi : u.internal with
    | true => exact Or.inr ⟨fun h => (by cases h.1), .refl s⟩
    | false =>
      cases exempt with
      | true => exact Or.inr ⟨fun h => (by cases h.2.1), .refl s⟩
      | false =>
        cases hk : u.klinesent with
        | true => exact Or.inr ⟨fun _ => rfl, .refl s⟩
        | false =>
          cases ha : OsAkillnicklist.appearsSpambot s.lists u.nick u.user (s.gecos u.id) with
          | true => exact Or.inl ⟨⟨rfl, rfl, rfl⟩, rfl, _, rfl⟩
          | false => exact Or.inr ⟨fun h => (by cases h.2.2), .refl s⟩
  congr := by
    intro s s' u u' hb hu
    rw [face_internal hu, face_nick hu, face_user hu, face_id hu, hb.lists, hb.gecos]

theorem bansBy_klinechan (chan : CStr) (exempt staff : Bool) :
    BansBy (klinechanCheckJoin core klineTime chan exempt staff) fun s u => u.internal = false ∧
      exempt = false ∧ staff = false ∧
        ∃ mc, OsKlinechan.mychanFind core s.mclist chan = some mc ∧ mc.closer.isSome = true where
  bans := by
    intro s u
    unfold klinechanCheckJoin
    cases hi : u.internal with
    | true => exact Or.inr ⟨fun h => (by cases h.1), .refl s⟩
    | false =>
      cases hmc : OsKlinechan.mychanFind core s.mclist chan with
      | none => exact Or.inr ⟨fun h => (by obtain ⟨_, -, -, mc, h, -⟩ := h; cases h), .refl s⟩
      | some mc =>
        cases hk : u.klinesent with
        | true => exact Or.inr ⟨fun _ => rfl, .refl s⟩
        | false =>
          cases hcl : mc.closer with
          | none =>
            refine Or.inr ⟨?_, by simp only [hcl]; exact .refl s⟩
            rintro ⟨-, -, -, mc', h, hc⟩
            cases h
            rw [hcl] at hc
            cases hc
          | some closer =>
            cases staff with
            | true =>
              refine Or.inr ⟨fun h => (by cases h.2.2.1), ?_⟩
              simp only [hcl]
              exact Spared.send s _
            | false =>
              cases exempt with
              | true =>
                refine Or.inr ⟨fun h => (by cases h.2.1), ?_⟩
                simp only [hcl]
                exact Spared.send s _
              | false => exact Or.inl ⟨⟨rfl, rfl, rfl, mc, rfl, by rw [hcl]; rfl⟩, rfl, _, by simp only [hcl]; rfl⟩
  congr := by
    intro s s' u u' hb hu
    rw [face_internal hu, hb.mclist]

theorem user?_face (d : Dnsbl.State) (id : ℕ) : (d.user? id).map face = (faces d).find? (·.id = id) := by
  rw [faces, List.find?_map]
  rfl

theorem mem_flags_of_user? {id : ℕ} {u : User} (h : d.user? id = some u) :
    u.id = id ∧ (id, u.klinesent) ∈ flags d := by
  have hid : u.id = id := by simpa using List.find?_some h
  exact ⟨hid, List.mem_map.mpr ⟨u, List.mem_of_find?_eq_some h, by rw [hid]⟩⟩

/-- What the hooks look at is as it was. -/
theorem hook_beside {f : User → State → State} {P : State → User → Prop} (hf : BansBy f P) (id : ℕ) (s : State) :
    Beside s (hook id f s) ∧ faces (hook id f s).dnsbl = faces s.dnsbl := by
  unfold hook
  cases s.dnsbl.user? id with
  | none => exact ⟨(Spared.refl s).toBeside, rfl⟩
  | some u =>
    simp only
    rcases hf.bans s u with ⟨-, -, k, hban⟩ | ⟨-, hs⟩
    · rw [hban]
      exact ⟨⟨rfl, rfl, rfl, rfl, rfl⟩, map_updUser _ u.id fun _ => rfl⟩
    · exact ⟨hs.toBeside, hs.calm.faces⟩

/-- **A hook bans who it is for**, if it has no ban yet. -/
theorem Inv.hooked (h : Inv s) {f : User → State → State} {P : State → User → Prop} (hf : BansBy f P) (id : ℕ) :
    Kept s (hook id f s) fun i => i = id ∧ ∃ u, s.dnsbl.user? id = some u ∧ P s u := by
  unfold hook
  cases hu : s.dnsbl.user? id with
  | none =>
    refine (h.calm (.refl _) rfl).congr fun i => ?_
    simp
  | some u =>
    obtain ⟨hid, hmem⟩ := mem_flags_of_user? hu
    rcases hf.bans s u with ⟨hP, hk, k, hban⟩ | ⟨hP, hs⟩
    · rw [hk] at hmem
      simp only [hban]
      have hkept : Kept s (klineAdd u k s) (· = id) := by
        refine h.ban hmem ?_ rfl le_rfl ?_
        · rw [← hid]
          exact flags_marked _ u.id
        · rw [← hid]
          rfl
      exact hkept.congr fun i => by simp [hP]
    · have hkept := h.calm hs.calm hs.bans
      refine ⟨hkept.inv, fun i b hb => ?_⟩
      rw [hkept.marked i b hb, or_false, iff_self_or]
      rintro ⟨rfl, u', hu', hPu⟩
      cases hu'
      rw [hP hPu] at hmem
      exact hmem

theorem ids_faces (h : faces d' = faces d) : (flags d').map Prod.fst = (flags d).map Prod.fst := by
  have hfst : ∀ d : Dnsbl.State, (flags d).map Prod.fst = (faces d).map User.id := fun d => by
    rw [flags, faces, List.map_map, List.map_map]
    rfl
  rw [hfst, hfst, h]

/-- Who a hook on new users is for. -/
def Due (exempt : Bool) : Hook → State → User → Prop
  | .dnsbl, _, _ => False
  | .defcon, s, u => u.internal = false ∧ s.defcon.level = 1
  | .aknl, s, u => u.internal = false ∧ exempt = false ∧
      OsAkillnicklist.appearsSpambot s.lists u.nick u.user (s.gecos u.id) = true

theorem Due.internal {exempt : Bool} : ∀ {h : Hook} {s : State} {u : User}, Due exempt h s u → u.internal = false
  | .defcon, _, _, h => h.1
  | .aknl, _, _, h => h.1

theorem lookups_reads (u : User) : ∀ (bs : List Dnsbl.Blacklist) (d : Dnsbl.State),
    readsAddress (bs.foldl (Dnsbl.lookupBlacklist u) d) = readsAddress d
  | [], _ => rfl
  | b :: bs, d => by
    have hround : readsAddress (Dnsbl.lookupBlacklist u d b) = readsAddress d := by
      unfold Dnsbl.lookupBlacklist Dnsbl.initiateBlacklistDnsquery
      split
      · rfl
      · cases u.ip <;>
          simp [readsAddress, Dnsbl.State.crash, Dnsbl.State.updBlacklist, Dnsbl.State.updUser]
    exact (lookups_reads u bs _).trans hround

theorem checkDnsbls_reads (u : User) (d : Dnsbl.State) :
    readsAddress (Dnsbl.checkDnsbls core u d) = readsAddress d := by
  have hlook : readsAddress (Dnsbl.lookupBlacklists u d) = readsAddress d := lookups_reads u _ d
  have hcrash : readsAddress d.crash = readsAddress d := rfl
  unfold Dnsbl.checkDnsbls
  repeat' split
  all_goals first | rfl | assumption

/-- The first lookup without an address is the last. -/
theorem lookups_crashed (u : User) : ∀ (bs : List Dnsbl.Blacklist) {d : Dnsbl.State}, d.crashed = false →
    ((bs.foldl (Dnsbl.lookupBlacklist u) d).crashed = true ↔ u.ip = none ∧ bs ≠ [])
  | [], d, hd => by simp [hd]
  | b :: bs, d, hd => by
    rw [List.foldl_cons, Dnsbl.lookupBlacklist, if_neg (by simp [hd]), Dnsbl.initiateBlacklistDnsquery]
    cases hip : u.ip with
    | none =>
      have hstop : ∀ (bs : List Dnsbl.Blacklist) {d : Dnsbl.State}, d.crashed = true →
          (bs.foldl (Dnsbl.lookupBlacklist u) d).crashed = true := by
        intro bs d hd
        induction bs with
        | nil => exact hd
        | cons b bs ih => rwa [List.foldl_cons, Dnsbl.lookupBlacklist, if_pos hd]
      exact iff_of_true (hstop bs rfl) ⟨rfl, List.cons_ne_nil b bs⟩
    | some ip =>
      refine (lookups_crashed u bs ?_).trans ?_
      · exact hd
      · simp [hip]

theorem checkDnsbls_crashed {u : User} {d : Dnsbl.State} (hd : d.crashed = false) :
    (Dnsbl.checkDnsbls core u d).crashed = true ↔
      u.internal = false ∧ u.ip = none ∧ readsAddress d = true := by
  have hlook : (Dnsbl.lookupBlacklists u d).crashed = true ↔ u.ip = none ∧ d.blacklistList ≠ [] :=
    lookups_crashed u d.blacklistList hd
  unfold Dnsbl.checkDnsbls
  cases hi : u.internal with
  | true => simp [hd]
  | false =>
    cases ha : d.action with
    | none => simp [hd, readsAddress, ha]
    | some action =>
      cases hip : u.ip with
      | none =>
        rw [hip] at hlook
        cases hel : d.dnsblElist with
        | nil => simp [hlook, readsAddress, ha, hel]
        | cons de els => simp [Dnsbl.State.crash, readsAddress, ha, hel]
      | some ip =>
        rw [hip] at hlook
        simp only [Option.isNone_some, Bool.false_eq_true, if_false]
        split
        · simp [hd]
        · simp [hlook]

theorem bansBy_useradd (core : Core) (exempt : Bool) : ∀ h : Hook, BansBy (useradd core exempt h) (Due exempt h)
  | .dnsbl =>
    { bans := fun s u => Or.inr ⟨False.elim, ⟨⟨rfl, rfl, rfl, rfl, checkDnsbls_reads u s.dnsbl⟩,
        calm_checkDnsbls u s.dnsbl, rfl⟩⟩
      congr := fun _ _ => Iff.rfl }
  | .defcon => bansBy_defcon
  | .aknl => bansBy_aknl exempt

/-- Only `dnsbl`'s hook ends the services. -/
theorem useradd_crashed {exempt : Bool} {h : Hook} {s : State} {u : User} (hs : s.dnsbl.crashed = false) :
    (useradd core exempt h u s).dnsbl.crashed = true ↔
      h = .dnsbl ∧ u.internal = false ∧ u.ip = none ∧ readsAddress s.dnsbl = true := by
  cases h with
  | dnsbl => simpa [useradd] using checkDnsbls_crashed hs
  | defcon =>
    have hkeep : (defconUseradd u s).dnsbl.crashed = s.dnsbl.crashed := by
      unfold defconUseradd
      repeat' split
      all_goals rfl
    simp [useradd, hkeep, hs]
  | aknl =>
    have hkeep : (aknlNickhook exempt u s).dnsbl.crashed = s.dnsbl.crashed := by
      unfold aknlNickhook
      repeat' split
      all_goals rfl
    simp [useradd, hkeep, hs]

theorem callHooks_crashed {exempt : Bool} {id : ℕ} {s : State} (hs : s.dnsbl.crashed = true) :
    ∀ hooks : List Hook, callHooks core exempt id hooks s = s
  | [] => rfl
  | _ :: _ => if_pos hs

theorem mem_called_cons {d : Dnsbl.State} {ip : Option CStr} {h h' : Hook} {hooks : List Hook} :
    h' ∈ called d ip (h :: hooks) ↔
      (ip = none ∧ readsAddress d = true → h ≠ .dnsbl) ∧ (h' = h ∨ h' ∈ called d ip hooks) := by
  unfold called
  by_cases hread : ip = none ∧ readsAddress d = true
  · obtain ⟨rfl, hread⟩ := hread
    cases h <;> simp [hread]
  · have hno : (ip.isNone && readsAddress d) = false := by
      rw [Bool.eq_false_iff, ne_eq, Bool.and_eq_true, Option.isNone_iff_eq_none]
      exact hread
    simp [hno, hread]

/-- **The hooks on new users** each ban who they are for, as far as they are called. -/
theorem Kept.callHooks (core : Core) (exempt : Bool) {id : ℕ} {u : User} : ∀ (hooks : List Hook) {s s' : State}
    {C : ℕ → Prop},
    Kept s s' C → s'.dnsbl.crashed = false → (s'.dnsbl.user? id).map face = some (face u) →
    Kept s (callHooks core exempt id hooks s') fun i =>
      C i ∨ i = id ∧ ∃ h ∈ called s'.dnsbl u.ip hooks, Due exempt h s' u
  | [], s, s', C, h, _, _ => h.congr fun i => by simp [called]
  | k :: hooks, s, s', C, h, hcr, hu => by
    obtain ⟨hbeside, hfaces⟩ := hook_beside (bansBy_useradd core exempt k) id s'
    obtain ⟨v, hv, hvu⟩ := Option.map_eq_some_iff.mp hu
    have hnext : ((hook id (useradd core exempt k) s').dnsbl.user? id).map face = some (face u) := by
      rw [user?_face, hfaces, ← user?_face, hu]
    have hdue (k' : Hook) : Due exempt k' (hook id (useradd core exempt k) s') u ↔ Due exempt k' s' u :=
      (bansBy_useradd core exempt k').congr hbeside rfl
    have hdue' : Due exempt k s' v ↔ Due exempt k s' u :=
      (bansBy_useradd core exempt k).congr (.refl s') hvu
    have hids : ∀ p ∈ flags (hook id (useradd core exempt k) s').dnsbl, p.1 ∈ (flags s'.dnsbl).map Prod.fst := by
      intro p hp
      rw [← ids_faces hfaces]
      exact List.mem_map.mpr ⟨p, hp, rfl⟩
    have hfirst := (h.trans (h.inv.hooked (bansBy_useradd core exempt k) id) hids).congr fun i => by
      simp only [hv, Option.some.injEq, exists_eq_left', hdue']
      exact Iff.rfl
    have hcrash : (hook id (useradd core exempt k) s').dnsbl.crashed = true ↔
        k = .dnsbl ∧ u.internal = false ∧ u.ip = none ∧ readsAddress s'.dnsbl = true := by
      simp only [hook, hv]
      rw [useradd_crashed hcr, face_internal hvu, face_ip hvu]
    have hcalled : called (hook id (useradd core exempt k) s').dnsbl u.ip hooks = called s'.dnsbl u.ip hooks := by
      rw [called, hbeside.reads, called]
    rw [Klines.callHooks, if_neg (by simp [hcr])]
    by_cases hend : (hook id (useradd core exempt k) s').dnsbl.crashed = true
    · obtain ⟨rfl, -, hread⟩ := hcrash.mp hend
      rw [callHooks_crashed hend]
      refine hfirst.congr fun i => or_congr_right (and_congr_right fun _ => iff_of_false not_false ?_)
      rintro ⟨h', hmem, -⟩
      exact (mem_called_cons.mp hmem).1 hread rfl
    · refine (Kept.callHooks core exempt hooks hfirst (by simpa using hend) hnext).congr fun i => ?_
      simp only [hcalled, hdue, or_assoc, ← and_or_left]
      refine or_congr_right (and_congr_right fun _ => ?_)
      constructor
      · intro hor
        have hin : u.internal = false := by
          rcases hor with hk | ⟨h', -, hk⟩
          · exact hk.internal
          · exact hk.internal
        have hgo : u.ip = none ∧ readsAddress s'.dnsbl = true → k ≠ .dnsbl :=
          fun hread hk => hend (hcrash.mpr ⟨hk, hin, hread⟩)
        rcases hor with hk | ⟨h', hmem, hk⟩
        · exact ⟨k, mem_called_cons.mpr ⟨hgo, Or.inl rfl⟩, hk⟩
        · exact ⟨h', mem_called_cons.mpr ⟨hgo, Or.inr hmem⟩, hk⟩
      · rintro ⟨h', hmem, hk⟩
        rcases (mem_called_cons.mp hmem).2 with rfl | hmem
        · exact Or.inl hk
        · exact Or.inr ⟨h', hmem, hk⟩

/-- Who connects is new, and has no ban. -/
theorem Inv.connected (h : Inv s) {u : User} (hu : u.id = s.dnsbl.next) (hk : u.klinesent = false)
    (hs : s'.dnsbl = s.dnsbl.addUser u) (hb : s'.bans = s.bans) :
    Kept s s' (fun _ => False) ∧ (s'.dnsbl.user? s.dnsbl.next).map face = some (face u) := by
  have hflags : flags s'.dnsbl = flags s.dnsbl ++ [(s.dnsbl.next, false)] := by
    rw [hs, flags, Dnsbl.State.addUser, List.map_append, List.map_singleton, hu, hk]
    rfl
  have hnew : ∀ p ∈ flags s.dnsbl, p.1 ≠ s.dnsbl.next := fun p hp => (h.known p hp).ne
  have hunbanned : s.dnsbl.next ∉ s.bans.map Prod.fst := by
    intro hmem
    obtain ⟨p, hp, hpn⟩ := List.mem_map.mp hmem
    exact (h.banned p hp).ne hpn
  have hnext : s'.dnsbl.next = s.dnsbl.next + 1 := by rw [hs, Dnsbl.State.addUser]
  refine ⟨⟨⟨⟨?_, ?_, ?_⟩, ?_, ?_, ?_⟩, fun id b hmem => ?_⟩, ?_⟩
  · rw [hb]
    exact h.once
  · rw [hb, h.set, hs, Dnsbl.State.addUser]
  · intro id b hmem
    rw [hflags, List.mem_append, List.mem_singleton] at hmem
    rw [hb]
    rcases hmem with hmem | hmem
    · exact h.flagged id b hmem
    · cases hmem
      exact iff_of_false (by simp) hunbanned
  · rw [hflags, List.map_append, List.nodup_append]
    refine ⟨h.ids, List.nodup_singleton _, fun a ha b hb => ?_⟩
    obtain ⟨p, hp, rfl⟩ := List.mem_map.mp ha
    rw [List.map_singleton, List.mem_singleton] at hb
    rw [hb]
    exact hnew p hp
  · intro p hp
    rw [hflags, List.mem_append, List.mem_singleton] at hp
    rw [hnext]
    rcases hp with hp | rfl
    · exact (h.known p hp).trans (Nat.lt_succ_self _)
    · exact Nat.lt_succ_self _
  · intro p hp
    rw [hb] at hp
    rw [hnext]
    exact (h.banned p hp).trans (Nat.lt_succ_self _)
  · rw [hflags, List.mem_append, List.mem_singleton] at hmem
    rcases hmem with hmem | hmem
    · rw [or_false]
      exact h.flag_iff hmem
    · cases hmem
      rw [or_false]
      exact iff_of_false Bool.false_ne_true fun htrue => hnew _ htrue rfl
  · have hnone : (faces s.dnsbl).find? (fun u : User => u.id = s.dnsbl.next) = none := by
      refine List.find?_eq_none.mpr fun u hu => ?_
      obtain ⟨v, hv, rfl⟩ := List.mem_map.mp hu
      exact decide_eq_false (hnew (v.id, v.klinesent) (List.mem_map.mpr ⟨v, hv, rfl⟩)) ▸ Bool.false_ne_true
    have hfaces : faces s'.dnsbl = faces s.dnsbl ++ [face u] := by
      rw [hs, faces, Dnsbl.State.addUser, List.map_append]
      rfl
    have hid : (face u).id = s.dnsbl.next := hu
    rw [user?_face, hfaces, List.find?_append, hnone, Option.none_or, List.find?_singleton]
    simp [hid]

/-! ### The answers -/

/-- A listing in the blacklist `b` bans. -/
def Hits (d : Dnsbl.State) (b : ℕ) : Prop := (d.blacklist? b).isSome = true ∧
  ∃ action, d.action = some action ∧ strcasecmp "KLINE".toList action = true

/-- Of the three actions `KLINE` is the one that is neither of the others. -/
theorem kline_iff (action : CStr) : strcasecmp "KLINE".toList action = true ↔ Dnsbl.isAction action = true ∧
    strcasecmp "SNOOP".toList action = false ∧ strcasecmp "NOTIFY".toList action = false := by
  have hne : ∀ w : CStr, "KLINE".toList.map Char.toLower ≠ w.map Char.toLower →
      strcasecmp "KLINE".toList action = true → strcasecmp w action = false := by
    intro w hw hk
    rw [strcasecmp_iff] at hk
    rw [Bool.eq_false_iff, ne_eq, strcasecmp_iff, ← hk]
    exact Ne.symm hw
  constructor
  · intro hk
    have hact : Dnsbl.isAction action = true := by rw [Dnsbl.isAction, hk, Bool.or_true, Bool.true_or]
    exact ⟨hact, hne _ (by decide) hk, hne _ (by decide) hk⟩
  · rintro ⟨ha, hs, hn⟩
    rwa [Dnsbl.isAction, hs, hn, Bool.false_or, Bool.or_false] at ha

/-- **A hit bans the user, or leaves the flags as they are**: where it should have
banned, the user had a ban, or was gone. -/
theorem dnsblHit_cases (u b : ℕ) (d : Dnsbl.State) :
    (Hits d b ∧ (u, false) ∈ flags d ∧ ∃ k, flags (Dnsbl.dnsblHit u b d) = (flags d).map (mark u) ∧
      (Dnsbl.dnsblHit u b d).klines = d.klines ++ [k] ∧ (Dnsbl.dnsblHit u b d).next = d.next) ∨
    Calm d (Dnsbl.dnsblHit u b d) ∧ (Hits d b → ∀ v, d.user? u = some v → v.klinesent = true) := by
  unfold Dnsbl.dnsblHit
  generalize hd₀ : ({ d with hits := d.hits ++ [d.action] } : Dnsbl.State) = d₀
  have hcalm : Calm d d₀ := hd₀ ▸ ⟨rfl, rfl, rfl, le_rfl⟩
  have hact : d₀.action = d.action := hd₀ ▸ rfl
  have huser : d₀.user? u = d.user? u := hd₀ ▸ rfl
  have hlist : d₀.blacklist? b = d.blacklist? b := hd₀ ▸ rfl
  have hnext : d₀.next = d.next := hd₀ ▸ rfl
  have hcrash : Calm d d₀.crash := hcalm.trans ⟨rfl, rfl, rfl, le_rfl⟩
  simp only [hact, huser, hlist, Hits]
  cases ha : d.action with
  | none => exact Or.inr ⟨hcrash, by rintro ⟨-, action, h, -⟩; cases h⟩
  | some action =>
    simp only [Option.some.injEq, exists_eq_left']
    -- what is no `KLINE` bans nobody
    have hother : ∀ {d'}, Calm d d' → strcasecmp "KLINE".toList action = false → Calm d d' ∧
        ((d.blacklist? b).isSome = true ∧ strcasecmp "KLINE".toList action = true →
          ∀ v, d.user? u = some v → v.klinesent = true) := by
      intro d' hd' hk
      refine ⟨hd', fun h => ?_⟩
      rw [hk] at h
      cases h.2
    have hkl := kline_iff action
    split
    · rename_i hno
      rw [Bool.not_eq_true'] at hno
      exact Or.inr (hother hcalm (by rw [Bool.eq_false_iff, ne_eq, hkl, hno]; simp))
    · rename_i hyes
      rw [Bool.not_eq_true', Bool.not_eq_false] at hyes
      cases hu : d.user? u with
      | none => exact Or.inr ⟨hcrash, fun _ v hv => by cases hv⟩
      | some usr =>
        obtain ⟨hid, hmem⟩ := mem_flags_of_user? hu
        simp only [hu, Option.some.injEq, forall_eq'] at hother ⊢
        split
        · rename_i hk
          rw [Bool.and_eq_true] at hk
          exact Or.inr ⟨hcalm, fun _ => hk.2⟩
        · rename_i hk
          rw [Bool.and_eq_true, not_and, Bool.not_eq_true] at hk
          cases hb : d.blacklist? b with
          | none => exact Or.inr ⟨hcrash, fun h => by cases h.1⟩
          | some bl =>
            simp only [hb] at hother ⊢
            split
            · rename_i hs
              exact Or.inr (hother hcalm (by rw [Bool.eq_false_iff, ne_eq, hkl, hs]; simp))
            · rename_i hs
              split
              · rename_i hn
                have hsent : Calm d (d₀.send [.notice (String.ofList usr.nick) (Dnsbl.listedText (usr.ip.getD "(null)".toList) bl.host)]) :=
                  hcalm.trans ⟨rfl, rfl, rfl, le_rfl⟩
                exact Or.inr (hother hsent (by rw [Bool.eq_false_iff, ne_eq, hkl, hn]; simp))
              · rename_i hn
                have hyes' := hkl.mpr ⟨hyes, by simpa using hs, by simpa using hn⟩
                rw [hk hyes'] at hmem
                refine Or.inl ⟨⟨rfl, hyes'⟩, hmem, ⟨usr.user, usr.host, "Banned (DNS Blacklist)", 86400⟩, ?_, ?_, hnext⟩
                · rw [← hcalm.flags]
                  exact flags_marked _ u
                · rw [← hcalm.klines]
                  rfl

/-- What an answer of the resolver does. -/
theorem Inv.replied (h : Inv s) {id now : ℕ} {reply : Option Dnsbl.Addr} {c : Dnsbl.BlacklistClient}
    (hc : s.dnsbl.lookup? id = some c) :
    Kept s (s.answer (.reply id reply now) (Dnsbl.blacklistDnsCallback c reply now
        { s.dnsbl with lookups := s.dnsbl.lookups.filter (·.id ≠ id) }))
      fun u => Dnsbl.listed reply = true ∧ c.u = some u ∧ Hits s.dnsbl c.blacklist := by
  generalize hd : ({ s.dnsbl with lookups := s.dnsbl.lookups.filter (·.id ≠ id) } : Dnsbl.State) = d
  have hcut : Calm s.dnsbl d := hd ▸ ⟨rfl, rfl, rfl, le_rfl⟩
  have hquiet : ∀ d', Calm s.dnsbl d' → (s.answer (.reply id reply now) d').bans = s.bans := by
    intro d' hd'
    rw [State.answer, hd'.klines]
    simp
  unfold Dnsbl.blacklistDnsCallback
  cases hu : c.u with
  | none => exact (h.calm hcut (hquiet d hcut)).congr fun u => by simp
  | some u =>
    simp only
    cases hl : Dnsbl.listed reply with
    | false =>
      have hg := hcut.trans (calm_garbageReply c.blacklist now reply d)
      rw [if_neg (by simp)]
      generalize Dnsbl.garbageReply c.blacklist now reply d = d₁ at hg
      cases d₁.user? u with
      | none =>
        have hq : Calm s.dnsbl d₁.crash := hg.trans ⟨rfl, rfl, rfl, le_rfl⟩
        exact (h.calm hq (hquiet _ hq)).congr fun u => by simp
      | some v =>
        have hq := hg.trans (calm_queries d₁ u fun w => some ((Dnsbl.dnsblQueries w).filter (· ≠ c.id)))
        exact (h.calm hq (hquiet _ hq)).congr fun u => by simp
    | true =>
      rw [if_pos rfl]
      have hhits : Hits d c.blacklist ↔ Hits s.dnsbl c.blacklist := by rw [← hd]; rfl
      have hkl : d.klines = s.dnsbl.klines := hcut.klines
      rcases dnsblHit_cases u c.blacklist d with ⟨hit, hmem, k, hf, hk, hn⟩ | ⟨hcalm, hflag⟩
      · rw [hkl] at hk
        rw [hcut.flags] at hmem hf
        have hbans : (s.answer (.reply id reply now) (Dnsbl.dnsblHit u c.blacklist d)).bans = s.bans ++ [(u, k)] := by
          have hans : answered s.dnsbl (.reply id reply now) = some u := by rw [answered, hc]; exact hu
          rw [State.answer, hk, List.drop_left, hans]
          rfl
        have hkept : Kept s (s.answer (.reply id reply now) (Dnsbl.dnsblHit u c.blacklist d)) (· = u) :=
          h.ban hmem hf hk (hn ▸ hcut.next) hbans
        exact hkept.congr fun i => by simp [hhits.mp hit, eq_comm]
      · have hq := hcut.trans hcalm
        have hkept : Kept s (s.answer (.reply id reply now) (Dnsbl.dnsblHit u c.blacklist d)) _ :=
          h.calm hq (hquiet _ hq)
        refine ⟨hkept.inv, fun i b hb => ?_⟩
        rw [hkept.marked i b hb, or_false, iff_self_or]
        rintro ⟨-, hui, hit⟩
        have hb' : (i, b) ∈ flags s.dnsbl := by
          rw [← hq.flags]
          exact hb
        obtain ⟨v, hv, hvi⟩ := List.mem_map.mp hb'
        have hid : v.id = i := congrArg Prod.fst hvi
        obtain ⟨w, hw⟩ := Dnsbl.user?_isSome hv
        rw [hid] at hw
        have hw' : d.user? u = some w := by
          rw [Option.some.inj hui, ← hd]
          exact hw
        have hmem := (mem_flags_of_user? hw).2
        rwa [hflag (hhits.mpr hit) w hw'] at hmem

/-- The events of `dnsbl` other than a connection. -/
theorem Inv.dnsbl_kept {e : Dnsbl.Event} (h : Inv s) (hs : handle core klineTime s (.dnsbl e) = some s') :
    Kept s s' fun id => Caught core s id (.dnsbl e) := by
  have hquiet : ∀ {d}, Calm s.dnsbl d → s' = s.answer e d → (∀ id, ¬ Caught core s id (.dnsbl e)) →
      Kept s s' fun id => Caught core s id (.dnsbl e) := by
    intro d hd heq hno
    have hbans : s'.bans = s.bans := by
      rw [heq, State.answer, hd.klines]
      simp
    have hkept : Kept s s' _ := h.calm (heq ▸ hd) hbans
    exact hkept.congr fun id => iff_of_false not_false (hno id)
  have hstep : ∀ {d}, Dnsbl.step core s.dnsbl e = some d → Dnsbl.handle core s.dnsbl e = some d := by
    intro d hd
    unfold Dnsbl.step at hd
    split at hd
    · cases hd
    · exact hd
  cases e with
  | connect nick user host ip internal => cases hs
  | quit id =>
    obtain ⟨d, hd, rfl⟩ := Option.map_eq_some_iff.mp hs
    cases hstep hd
    have hsub : (flags { s.dnsbl with users := s.dnsbl.users.filter (·.id ≠ id) }).Sublist (flags s.dnsbl) :=
      List.filter_sublist.map _
    have hbans : (s.answer (.quit id) { s.dnsbl with users := s.dnsbl.users.filter (·.id ≠ id) }).bans = s.bans := by
      rw [State.answer]
      simp
    refine ⟨⟨⟨?_, ?_, ?_⟩, ?_, ?_, ?_⟩, ?_⟩
    · rw [hbans]
      exact h.once
    · rw [hbans]
      exact h.set
    · rw [hbans]
      exact fun i b hb => h.flagged i b (hsub.subset hb)
    · exact h.ids.sublist (hsub.map _)
    · exact fun p hp => h.known p (hsub.subset hp)
    · rw [hbans]
      exact h.banned
    · exact fun i b hb => (h.flag_iff (hsub.subset hb)).trans (or_iff_left not_false).symm
  | scan user =>
    obtain ⟨d, hd, rfl⟩ := Option.map_eq_some_iff.mp hs
    cases hstep hd
    exact hquiet (calm_osCmdDnsblscan user _) rfl fun _ => id
  | setAction act =>
    obtain ⟨d, hd, rfl⟩ := Option.map_eq_some_iff.mp hs
    cases hstep hd
    exact hquiet (calm_osCmdSetDnsblaction act _) rfl fun _ => id
  | exempt source now command ip reason =>
    obtain ⟨d, hd, rfl⟩ := Option.map_eq_some_iff.mp hs
    cases hstep hd
    exact hquiet (calm_osCmdDnsblexempt source now command ip reason _) rfl fun _ => id
  | config names =>
    obtain ⟨d, hd, rfl⟩ := Option.map_eq_some_iff.mp hs
    cases hstep hd
    exact hquiet (calm_dnsblConfigHandler names _) rfl fun _ => id
  | dnsblAction value =>
    obtain ⟨d, hd, rfl⟩ := Option.map_eq_some_iff.mp hs
    cases hstep hd
    exact hquiet (d := Dnsbl.dnsblActionItem value s.dnsbl) ⟨rfl, rfl, rfl, le_rfl⟩ rfl fun _ => id
  | purge =>
    obtain ⟨d, hd, rfl⟩ := Option.map_eq_some_iff.mp hs
    cases hstep hd
    exact hquiet (d := Dnsbl.destroyBlacklists s.dnsbl) ⟨rfl, rfl, rfl, le_rfl⟩ rfl fun _ => id
  | reply id reply now =>
    obtain ⟨d, hd, rfl⟩ := Option.map_eq_some_iff.mp hs
    obtain ⟨c, hc, rfl⟩ := Option.map_eq_some_iff.mp (hstep hd)
    refine (h.replied hc).congr fun u => ?_
    simp only [Caught, Hits, hc, Option.some.injEq, exists_eq_left', and_assoc]

/-! ### Every event -/

theorem user?_updUser (d : Dnsbl.State) (id : ℕ) {f : User → User} (hf : ∀ u, (f u).id = u.id) :
    (d.updUser id f).user? id = (d.user? id).map f := by
  unfold Dnsbl.State.user? Dnsbl.State.updUser
  rw [List.find?_map]
  have hp : ((fun u : User => decide (u.id = id)) ∘ fun u => if u.id = id then f u else u) =
      fun u => decide (u.id = id) := by
    funext u
    simp only [Function.comp_apply]
    split
    · rw [hf]
    · rfl
  rw [hp]
  cases hu : d.users.find? fun u => decide (u.id = id) with
  | none => rfl
  | some u =>
    have hid : u.id = id := by simpa using List.find?_some hu
    rw [Option.map_some, Option.map_some, if_pos hid]

/-- A user who connects. -/
theorem Inv.connect_kept {nick user host : CStr} {ip : Option CStr} {gecos : CStr} {internal exempt : Bool}
    {hooks : List Hook} (h : Inv s) (hcr : ¬ s.dnsbl.crashed = true)
    (hs : handle core klineTime s (.connect nick user host ip gecos internal exempt hooks) = some s') :
    Kept s s' fun id => Caught core s id (.connect nick user host ip gecos internal exempt hooks) := by
  cases hs
  obtain ⟨u, hu⟩ : ∃ u, u = Dnsbl.newUser s.dnsbl nick user host ip internal := ⟨_, rfl⟩
  obtain ⟨t, ht⟩ : ∃ t : State, t = { s with
      dnsbl := s.dnsbl.addUser u, gecos := Function.update s.gecos s.dnsbl.next gecos } := ⟨_, rfl⟩
  have hconnected : Kept s t (fun _ => False) ∧ (t.dnsbl.user? s.dnsbl.next).map face = some (face u) :=
    h.connected (by rw [hu]; rfl) (by rw [hu]; rfl) (by rw [ht]) (by rw [ht])
  obtain ⟨hnew, hface⟩ := hconnected
  have hrun : t.dnsbl.crashed = false := by
    rw [ht]
    simpa [Dnsbl.State.addUser] using hcr
  have hgecos : t.gecos s.dnsbl.next = gecos := by
    rw [ht]
    exact Function.update_self _ _ _
  have hcalled : called t.dnsbl ip hooks = called s.dnsbl ip hooks := by
    rw [ht]
    rfl
  have hlists : t.lists = s.lists := ht ▸ rfl
  have hlevel : t.defcon = s.defcon := ht ▸ rfl
  have hkept := hnew.callHooks core exempt hooks hrun hface
  rw [ht, hu] at hkept
  refine hkept.congr fun i => ?_
  rw [← hu, ← ht, false_or]
  have hip : u.ip = ip := by rw [hu]; rfl
  have hdue (k : Hook) : Due exempt k t u ↔ internal = false ∧ (k = .defcon ∧ s.defcon.level = 1 ∨
      k = .aknl ∧ exempt = false ∧ OsAkillnicklist.appearsSpambot s.lists nick user gecos = true) := by
    cases k <;> simp [Due, hu, Dnsbl.newUser, hlists, hlevel, hgecos]
  simp only [Caught, hip, hcalled, hdue]
  constructor
  · rintro ⟨hi, k, hmem, hin, ⟨rfl, hk⟩ | ⟨rfl, hk⟩⟩
    · exact ⟨hi, hin, Or.inl ⟨hmem, hk⟩⟩
    · exact ⟨hi, hin, Or.inr ⟨hmem, hk⟩⟩
  · rintro ⟨hi, hin, ⟨hmem, hk⟩ | ⟨hmem, hk⟩⟩
    · exact ⟨hi, _, hmem, hin, Or.inl ⟨rfl, hk⟩⟩
    · exact ⟨hi, _, hmem, hin, Or.inr ⟨rfl, hk⟩⟩

/-- A user who changes nick. -/
theorem Inv.nickchange_kept {id : ℕ} {nick : CStr} {exempt : Bool} (h : Inv s)
    (hs : handle core klineTime s (.nickchange id nick exempt) = some s') :
    Kept s s' fun i => Caught core s i (.nickchange id nick exempt) := by
  cases hs
  obtain ⟨t, ht⟩ : ∃ t : State, t = { s with dnsbl := s.dnsbl.updUser id fun u => { u with nick := nick } } :=
    ⟨_, rfl⟩
  have hnick : Kept s t fun _ => False := by
    rw [ht]
    exact h.kept (map_updUser s.dnsbl id fun _ => rfl) rfl le_rfl rfl
  have hids : ∀ p ∈ flags (hook id (aknlNickhook exempt) t).dnsbl, p.1 ∈ (flags t.dnsbl).map Prod.fst := by
    intro p hp
    rw [← ids_faces (hook_beside (bansBy_aknl exempt) id t).2]
    exact List.mem_map.mpr ⟨p, hp, rfl⟩
  have hkept := hnick.trans (hnick.inv.hooked (bansBy_aknl exempt) id) hids
  have huser : t.dnsbl.user? id = (s.dnsbl.user? id).map fun u => { u with nick := nick } := by
    rw [ht]
    exact user?_updUser s.dnsbl id fun _ => rfl
  have hlists : t.lists = s.lists := ht ▸ rfl
  have hgecos : t.gecos = s.gecos := ht ▸ rfl
  simp only [huser, hlists, hgecos, Option.map_eq_some_iff] at hkept
  subst ht
  refine hkept.congr fun i => ?_
  rw [false_or]
  simp only [Caught]
  constructor
  · rintro ⟨rfl, _, ⟨u, hu, rfl⟩, hi, he, ha⟩
    refine ⟨rfl, he, u, hu, hi, ?_⟩
    rw [← (mem_flags_of_user? hu).1]
    exact ha
  · rintro ⟨rfl, he, u, hu, hi, ha⟩
    refine ⟨rfl, _, ⟨u, hu, rfl⟩, hi, he, ?_⟩
    rw [← (mem_flags_of_user? hu).1] at ha
    exact ha

/-- **What a step does to the bans.** -/
theorem step_kept {e : Event} (h : Inv s) (hs : step core klineTime s e = some s') :
    Kept s s' fun id => Caught core s id e := by
  unfold step at hs
  split at hs
  · cases hs
  rename_i hcr
  cases e with
  | connect nick user host ip gecos internal exempt hooks => exact h.connect_kept hcr hs
  | nickchange id nick exempt => exact h.nickchange_kept hs
  | join id chan exempt staff =>
    cases hs
    refine (h.hooked (bansBy_klinechan chan exempt staff) id).congr fun i => ?_
    simp only [Caught]
    constructor
    · rintro ⟨rfl, u, hu, hi, he, hst, hmc⟩
      exact ⟨rfl, he, hst, ⟨u, hu, hi⟩, hmc⟩
    · rintro ⟨rfl, he, hst, ⟨u, hu, hi⟩, hmc⟩
      exact ⟨rfl, u, hu, hi, he, hst, hmc⟩
  | dnsbl e => exact h.dnsbl_kept hs
  | defcon e =>
    obtain ⟨d, -, rfl⟩ := Option.map_eq_some_iff.mp hs
    exact h.calm (.refl _) rfl
  | nicklist entry file =>
    cases hs
    exact h.calm (.refl _) rfl
  | klinechan e =>
    obtain ⟨mclist, -, rfl⟩ := Option.map_eq_some_iff.mp hs
    exact h.calm (.refl _) rfl

/-! ### Every run -/

theorem init_inv (timeout : ℕ) : Inv (init timeout) := by
  refine ⟨⟨List.nodup_nil, rfl, ?_⟩, List.nodup_nil, ?_, ?_⟩ <;> simp [init, flags, Dnsbl.init]

theorem inv_of_reach {timeout : ℕ} (h : Run.Reach (step core klineTime) (init timeout) s) : Inv s :=
  Run.reach_inv (I := Inv) (init_inv timeout) (fun _ _ _ hI hs => (step_kept hI hs).inv) h

/-- **Nobody is sent two bans**, whatever the four modules do one after another, and
nobody else is sent any. -/
theorem one_kline_each (core : Core) (klineTime timeout : ℕ) (es : List Event) :
    Run.Always (step core klineTime) Sent (init timeout) es :=
  ⟨(init_inv timeout).toSent, Run.along_of_reach (fun _ _ _ hr hs =>
    (step_kept (inv_of_reach hr) hs).inv.toSent) es⟩

/-- **Who is sent a ban, and when**: after each event a user has been sent one if it
had been before, or the event is one that bans it, and only then. -/
theorem klined_iff_caught (core : Core) (klineTime timeout : ℕ) (es : List Event) :
    Run.Along (step core klineTime) (fun s e s' => ∀ u ∈ s'.dnsbl.users, u.klinesent = true ↔
      (∃ v ∈ s.dnsbl.users, v.id = u.id ∧ v.klinesent = true) ∨ Caught core s u.id e) (init timeout) es := by
  refine Run.along_of_reach (fun s e s' hr hs u hu => ?_) es
  have hmem : (u.id, u.klinesent) ∈ flags s'.dnsbl := List.mem_map.mpr ⟨u, hu, rfl⟩
  rw [(step_kept (inv_of_reach hr) hs).marked u.id u.klinesent hmem]
  refine or_congr_left ?_
  simp only [flags, List.mem_map, Prod.mk.injEq]

end Klines
end AthemeContrib
