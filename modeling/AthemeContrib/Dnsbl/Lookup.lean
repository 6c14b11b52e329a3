/-
# dnsbl: what an answer touches

A lookup keeps raw pointers to its user and its blacklist. The user's
"dnsbl:queries" list is meant to hold the lookups still unanswered, but
nothing is done with it when the user quits, a purge frees the blacklists
under their lookups, and a listing returns before the lookup leaves the list.
Every other event keeps the lists exact (`step_exact`), and what a lookup points
to is there as long as neither happened since it was started (`live_iff_since`).
So the law (`RepliesLive`) holds along a run exactly if every answer is no listing
and comes before its user quits and before a purge (`replies_live_iff`).

Key definitions: `QueriesExact`, `RepliesLive`, `Starts`, `Ends`, `AnsweredInTime`.
Key theorems: `lookupBlacklists_exact`, `step_exact`, `step_moves`, `live_iff_since`, `replies_live_iff`.
-/
import AthemeContrib.Lib.Since
import AthemeContrib.Dnsbl.Model
import Mathlib.Data.List.Nodup
import Mathlib.Order.Nat

namespace AthemeContrib
namespace Dnsbl

/-- Every user's list holds exactly that user's unanswered lookups, in the
order they were made. -/
def QueriesExact (s : State) : Prop :=
  ∀ u ∈ s.users, dnsblQueries u = (s.lookups.filter (·.u = some u.id)).map (·.id)

/-- Object numbers are given out once, and every lookup has a user. -/
structure Fresh (s : State) : Prop where
  userLt : ∀ u ∈ s.users, u.id < s.next
  lookupLt : ∀ c ∈ s.lookups, c.id < s.next
  lookupNodup : (s.lookups.map (·.id)).Nodup
  lookupUser : ∀ c ∈ s.lookups, ∃ u, c.u = some u ∧ u < s.next

/-- What the answers rely on. -/
structure Exact (s : State) : Prop extends Fresh s where
  queries : QueriesExact s

theorem init_exact : Exact init :=
  ⟨⟨by simp [init], by simp [init], by simp [init], by simp [init]⟩, by simp [QueriesExact, init]⟩

/-! ### Events that start and answer nothing -/

/-- `s'` has the users and the lookups of `s`, but for what the lookups do
not read. -/
structure Keeps (s s' : State) : Prop where
  users : s'.users.map (fun u => (u.id, u.queries)) = s.users.map (fun u => (u.id, u.queries))
  lookups : s'.lookups = s.lookups
  next : s.next ≤ s'.next

theorem Keeps.refl (s : State) : Keeps s s := ⟨rfl, rfl, le_rfl⟩

theorem Keeps.trans {a b c : State} (h : Keeps a b) (h' : Keeps b c) : Keeps a c :=
  ⟨h'.users.trans h.users, h'.lookups.trans h.lookups, h.next.trans h'.next⟩

theorem exists_same {us us' : List User}
    (h : us'.map (fun u => (u.id, u.queries)) = us.map (fun u => (u.id, u.queries))) {u : User}
    (hu : u ∈ us') : ∃ v ∈ us, v.id = u.id ∧ v.queries = u.queries := by
  have hm : (u.id, u.queries) ∈ us'.map (fun u => (u.id, u.queries)) := List.mem_map_of_mem hu
  rw [h] at hm
  obtain ⟨v, hv, he⟩ := List.mem_map.mp hm
  exact ⟨v, hv, (Prod.ext_iff.mp he).1, (Prod.ext_iff.mp he).2⟩

theorem Keeps.exact {s s' : State} (h : Keeps s s') (hE : Exact s) : Exact s' where
  userLt := fun u hu => by
    obtain ⟨v, hv, hid, -⟩ := exists_same h.users hu
    have h1 := hE.userLt v hv
    have h2 := h.next
    omega
  lookupLt := fun c hc => by
    rw [h.lookups] at hc
    have h1 := hE.lookupLt c hc
    have h2 := h.next
    omega
  lookupNodup := by rw [h.lookups]; exact hE.lookupNodup
  lookupUser := fun c hc => by
    rw [h.lookups] at hc
    obtain ⟨u, hu, hlt⟩ := hE.lookupUser c hc
    exact ⟨u, hu, lt_of_lt_of_le hlt h.next⟩
  queries := fun u hu => by
    obtain ⟨v, hv, hid, hq⟩ := exists_same h.users hu
    have hv' := hE.queries v hv
    unfold dnsblQueries at hv' ⊢
    rw [h.lookups, ← hq, ← hid]
    exact hv'

theorem keeps_send (s : State) (o : List Output) : Keeps s (s.send o) := ⟨rfl, rfl, le_rfl⟩

theorem keeps_updBlacklist (s : State) (b : ℕ) (f : Blacklist → Blacklist) : Keeps s (s.updBlacklist b f) :=
  ⟨rfl, rfl, le_rfl⟩

theorem keeps_updUser (s : State) (id : ℕ) (f : User → User) (hid : ∀ u, (f u).id = u.id)
    (hq : ∀ u, (f u).queries = u.queries) : Keeps s (s.updUser id f) := by
  refine ⟨?_, rfl, le_rfl⟩
  simp only [State.updUser, List.map_map]
  refine List.map_congr_left fun u _ => ?_
  simp only [Function.comp_apply]
  split
  · rw [hid, hq]
  · rfl

theorem keeps_osCmdSetDnsblaction (act : Option CStr) (s : State) : Keeps s (osCmdSetDnsblaction act s) := by
  unfold osCmdSetDnsblaction
  cases act with
  | none => exact keeps_send s _
  | some act =>
    simp only
    split_ifs
    · exact ⟨rfl, rfl, le_rfl⟩
    · exact ⟨rfl, rfl, le_rfl⟩
    · exact keeps_send s _

theorem keeps_osCmdDnsblexempt (core : Core) (source : CStr) (now : ℕ) (command ip reason : Option CStr)
    (s : State) : Keeps s (osCmdDnsblexempt core source now command ip reason s) := by
  unfold osCmdDnsblexempt
  cases command with
  | none => exact keeps_send s _
  | some command =>
    simp only
    split_ifs
    · cases ip with
      | none => exact keeps_send s _
      | some ip =>
        cases reason with
        | none => exact keeps_send s _
        | some reason =>
          simp only
          split_ifs
          · exact keeps_send s _
          · exact ⟨rfl, rfl, le_rfl⟩
    · cases ip with
      | none => exact keeps_send s _
      | some ip =>
        simp only
        cases s.dnsblElist.find? (fun de => core.irccasecmp de.ip ip) with
        | none => exact keeps_send s _
        | some de => exact ⟨rfl, rfl, le_rfl⟩
    · exact keeps_send s _
    · exact keeps_send s _

theorem keeps_newBlacklist (name : CStr) (s : State) : Keeps s (newBlacklist name s) := by
  unfold newBlacklist
  simp only
  split
  · exact keeps_updBlacklist s _ _
  · exact ⟨rfl, rfl, Nat.le_succ _⟩

theorem keeps_dnsblConfigHandler : ∀ (names : List CStr) (s : State), Keeps s (dnsblConfigHandler names s)
  | [], s => Keeps.refl s
  | n :: names, s => (keeps_newBlacklist n s).trans (keeps_dnsblConfigHandler names (newBlacklist n s))

theorem keeps_dnsblHit (u blptr : ℕ) (s : State) : Keeps s (dnsblHit u blptr s) := by
  unfold dnsblHit
  dsimp only
  repeat' split
  any_goals exact ⟨rfl, rfl, le_rfl⟩
  -- a k-line marks the user
  have h : Keeps s { s with hits := s.hits ++ [s.action] } := ⟨rfl, rfl, le_rfl⟩
  refine h.trans (Keeps.trans ?_ (keeps_updUser _ _ _ (fun _ => rfl) (fun _ => rfl)))
  exact ⟨rfl, rfl, le_rfl⟩

theorem keeps_garbageReply (blptr now : ℕ) (reply : Option Addr) (s : State) :
    Keeps s (garbageReply blptr now reply s) := by
  unfold garbageReply
  cases reply with
  | none => exact Keeps.refl s
  | some a =>
    simp only
    cases s.blacklist? blptr with
    | none => exact ⟨rfl, rfl, le_rfl⟩
    | some bl =>
      simp only
      split
      · exact keeps_updBlacklist s _ _
      · exact Keeps.refl s

/-! ### Starting lookups -/

theorem keeps_crash (s : State) : Keeps s s.crash := ⟨rfl, rfl, le_rfl⟩

theorem initiate_exact {s : State} (hE : Exact s) (blptr : ℕ) {u : User} (hu : u.id < s.next) :
    Exact (initiateBlacklistDnsquery blptr u s) := by
  unfold initiateBlacklistDnsquery
  cases u.ip with
  | none => exact (keeps_crash s).exact hE
  | some ip =>
    constructor
    · constructor
      · intro v hv
        simp only [State.updBlacklist, State.updUser, List.mem_map] at hv
        obtain ⟨w, hw, rfl⟩ := hv
        have hlt := hE.userLt w hw
        show _ < s.next + 1
        split <;> exact Nat.lt_succ_of_lt hlt
      · intro c hc
        show c.id < s.next + 1
        rcases List.mem_append.mp hc with hc | hc
        · exact Nat.lt_succ_of_lt (hE.lookupLt c hc)
        · rw [List.mem_singleton.mp hc]
          exact Nat.lt_succ_self _
      · show ((s.lookups ++ [(⟨s.next, blptr, some u.id⟩ : BlacklistClient)]).map (·.id)).Nodup
        rw [List.map_append, List.map_singleton, List.nodup_append]
        refine ⟨hE.lookupNodup, List.nodup_singleton _, ?_⟩
        rintro a ha b hb rfl
        obtain ⟨c, hc, hid⟩ := List.mem_map.mp ha
        have hlt := hE.lookupLt c hc
        have hb : a = s.next := List.mem_singleton.mp hb
        omega
      · intro c hc
        show ∃ v, c.u = some v ∧ v < s.next + 1
        rcases List.mem_append.mp hc with hc | hc
        · obtain ⟨v, hv, hlt⟩ := hE.lookupUser c hc
          exact ⟨v, hv, Nat.lt_succ_of_lt hlt⟩
        · rw [List.mem_singleton.mp hc]
          exact ⟨u.id, rfl, Nat.lt_succ_of_lt hu⟩
    · intro v hv
      simp only [State.updBlacklist, State.updUser, List.mem_map] at hv
      obtain ⟨w, hw, rfl⟩ := hv
      have hq := hE.queries w hw
      show _ = ((s.lookups ++ [(⟨s.next, blptr, some u.id⟩ : BlacklistClient)]).filter _).map _
      by_cases hwu : w.id = u.id
      · simp only [hwu, if_true, dnsblQueries, Option.getD_some] at hq ⊢
        simp [List.filter_append, ← hq]
      · have hne : (some u.id : Option ℕ) ≠ some w.id := fun h => hwu (Option.some.inj h).symm
        simp only [hwu, if_false]
        simp [List.filter_append, hne, hq]

theorem initiate_next (blptr : ℕ) (u : User) (s : State) : s.next ≤ (initiateBlacklistDnsquery blptr u s).next := by
  unfold initiateBlacklistDnsquery
  cases u.ip with
  | none => exact le_rfl
  | some ip => exact Nat.le_succ _

/-- A round of lookups, one in each blacklist, keeps the lists exact. -/
theorem lookups_exact {u : User} : ∀ (bs : List Blacklist) {s : State}, Exact s → u.id < s.next →
    Exact (bs.foldl (lookupBlacklist u) s)
  | [], _, hE, _ => hE
  | b :: bs, s, hE, hu => by
    have h0 := (keeps_updBlacklist s b.id fun b => { b with status := 0 }).exact hE
    have hround : Exact (lookupBlacklist u s b) ∧ u.id < (lookupBlacklist u s b).next := by
      unfold lookupBlacklist
      split
      · exact ⟨hE, hu⟩
      · refine ⟨initiate_exact h0 b.id hu, lt_of_lt_of_le hu ?_⟩
        exact initiate_next b.id u (s.updBlacklist b.id fun b => { b with status := 0 })
    exact lookups_exact bs hround.1 hround.2

theorem lookupBlacklists_exact {s : State} (hE : Exact s) {u : User} (hu : u.id < s.next) :
    Exact (lookupBlacklists u s) := lookups_exact s.blacklistList hE hu

theorem checkDnsbls_exact (core : Core) {s : State} (hE : Exact s) {u : User} (hu : u.id < s.next) :
    Exact (checkDnsbls core u s) := by
  have hlook := lookupBlacklists_exact hE hu
  have hcrash := (keeps_crash s).exact hE
  unfold checkDnsbls
  repeat' split
  all_goals assumption

theorem osCmdDnsblscan_exact (core : Core) (user : Option CStr) {s : State} (hE : Exact s) :
    Exact (osCmdDnsblscan core user s) := by
  unfold osCmdDnsblscan
  cases user with
  | none => exact (keeps_send s _).exact hE
  | some user =>
    simp only
    cases hf : s.users.find? (fun u => core.irccasecmp u.nick user) with
    | none => exact (keeps_send s _).exact hE
    | some u =>
      have hu := hE.userLt u (List.mem_of_find?_eq_some hf)
      have hlook := lookupBlacklists_exact hE hu
      dsimp only
      split
      · exact hlook
      · exact (keeps_send _ _).exact hlook

/-- A new user has no lookup yet. -/
theorem connect_exact {s : State} (hE : Exact s) (nick user host : CStr) (ip : Option CStr) (internal : Bool) :
    Exact (s.addUser (newUser s nick user host ip internal)) where
  userLt := fun u hu => by
    rcases List.mem_append.mp hu with hu | hu
    · exact Nat.lt_succ_of_lt (hE.userLt u hu)
    · rw [List.mem_singleton.mp hu]
      exact Nat.lt_succ_self _
  lookupLt := fun c hc => Nat.lt_succ_of_lt (hE.lookupLt c hc)
  lookupNodup := hE.lookupNodup
  lookupUser := fun c hc => by
    obtain ⟨v, hv, hlt⟩ := hE.lookupUser c hc
    exact ⟨v, hv, Nat.lt_succ_of_lt hlt⟩
  queries := fun u hu => by
    rcases List.mem_append.mp hu with hu | hu
    · exact hE.queries u hu
    · rw [List.mem_singleton.mp hu]
      symm
      simp only [newUser, dnsblQueries, Option.getD_none, List.map_eq_nil_iff, List.filter_eq_nil_iff]
      intro c hc hcu
      obtain ⟨v, hv, hlt⟩ := hE.lookupUser c hc
      rw [of_decide_eq_true hcu, Option.some.injEq] at hv
      omega

theorem quit_exact {s : State} (hE : Exact s) (id : ℕ) :
    Exact { s with users := s.users.filter (·.id ≠ id) } where
  userLt := fun u hu => hE.userLt u (List.mem_of_mem_filter hu)
  lookupLt := hE.lookupLt
  lookupNodup := hE.lookupNodup
  lookupUser := hE.lookupUser
  queries := fun u hu => hE.queries u (List.mem_of_mem_filter hu)

/-! ### Answers -/

/-- The law of an answer: its user and its blacklist are still there, or it
is ignored, and afterwards it is in no list; the lists stay exact. -/
def RepliesLive (s : State) (e : Event) (s' : State) : Prop :=
  QueriesExact s' ∧
  ∀ id reply now c, e = .reply id reply now → s.lookup? id = some c →
    (c.u = none ∨ (∃ u ∈ s.users, c.u = some u.id) ∧ ∃ b ∈ s.blacklistList, b.id = c.blacklist) ∧
    ∀ u ∈ s'.users, c.u = some u.id → id ∉ dnsblQueries u

/-- An answer the callback can handle. -/
def Answerable (s : State) : Event → Prop
  | .reply id reply _ => ∀ c, s.lookup? id = some c →
    (∃ u ∈ s.users, c.u = some u.id) ∧ (∃ b ∈ s.blacklistList, b.id = c.blacklist) ∧ listed reply = false
  | _ => True

theorem lookup?_eq_some {s : State} {id : ℕ} {c : BlacklistClient} (h : s.lookup? id = some c) :
    c ∈ s.lookups ∧ c.id = id :=
  ⟨List.mem_of_find?_eq_some h, by simpa using List.find?_some h⟩

/-- The lookup `id` leaves the list of the user `u`. -/
def State.dequeued (s : State) (u id : ℕ) : State :=
  s.updUser u fun v => { v with queries := some ((dnsblQueries v).filter (· ≠ id)) }

theorem Keeps.dequeued {s s' : State} (h : Keeps s s') (u id : ℕ) :
    Keeps (s.dequeued u id) (s'.dequeued u id) := by
  refine ⟨?_, h.lookups, h.next⟩
  have husers : ∀ s : State, (s.dequeued u id).users.map (fun v => (v.id, v.queries)) =
      (s.users.map fun v => (v.id, v.queries)).map fun q =>
        if q.1 = u then (q.1, some ((q.2.getD []).filter (· ≠ id))) else q := by
    intro s
    simp only [State.dequeued, State.updUser, List.map_map]
    refine List.map_congr_left fun w _ => ?_
    simp only [Function.comp_apply, dnsblQueries]
    split <;> rfl
  rw [husers, husers, h.users]

/-- The callback takes a lookup that is no listing out of its user's list. -/
theorem callback_unlisted {c : BlacklistClient} {u : ℕ} (hcu : c.u = some u) {reply : Option Addr}
    (hl : listed reply = false) {now : ℕ} {s : State}
    (hu : ∃ v, (garbageReply c.blacklist now reply s).user? u = some v) :
    blacklistDnsCallback c reply now s = (garbageReply c.blacklist now reply s).dequeued u c.id := by
  obtain ⟨v, hv⟩ := hu
  simp only [blacklistDnsCallback, hcu, hl, Bool.false_eq_true, if_false, hv, State.dequeued]

theorem reply_exact {s : State} (hE : Exact s) {c : BlacklistClient} (hc : c ∈ s.lookups) {u : ℕ}
    (hcu : c.u = some u) :
    Exact (({ s with lookups := s.lookups.filter (·.id ≠ c.id) } : State).dequeued u c.id) where
  userLt := fun v hv => by
    simp only [State.dequeued, State.updUser, List.mem_map] at hv
    obtain ⟨w, hw, rfl⟩ := hv
    have hlt := hE.userLt w hw
    show _ < s.next
    split <;> exact hlt
  lookupLt := fun d hd => hE.lookupLt d (List.mem_of_mem_filter hd)
  lookupNodup := hE.lookupNodup.sublist (List.filter_sublist.map _)
  lookupUser := fun d hd => hE.lookupUser d (List.mem_of_mem_filter hd)
  queries := fun v hv => by
    simp only [State.dequeued, State.updUser, List.mem_map] at hv
    obtain ⟨w, hw, rfl⟩ := hv
    have hq := hE.queries w hw
    show _ = ((s.lookups.filter (·.id ≠ c.id)).filter _).map (·.id)
    by_cases hwu : w.id = u
    · simp only [hwu, if_true, dnsblQueries, Option.getD_some] at hq ⊢
      rw [hq, List.filter_map, List.filter_filter, List.filter_filter]
      simp only [Function.comp_def, Bool.and_comm]
    · -- the lookup belongs to `u`, so another user's part of the list has none of its number
      have hsame : ∀ d ∈ s.lookups, d.u = some w.id → d.id ≠ c.id := by
        intro d hd hdu hid
        have hdc := List.inj_on_of_nodup_map hE.lookupNodup hd hc hid
        rw [hdc, hcu, Option.some.injEq] at hdu
        exact hwu hdu.symm
      simp only [hwu, if_false]
      rw [hq, List.filter_filter]
      congr 1
      refine List.filter_congr fun d hd => ?_
      by_cases hdu : d.u = some w.id
      · simp [hdu, hsame d hd hdu]
      · simp [hdu]

/-- Every event that is no answer keeps the lists exact. -/
theorem step_exact {core : Core} {s s' : State} {e : Event} (hE : Exact s) (h : step core s e = some s')
    (he : ∀ id reply now, e ≠ .reply id reply now) : Exact s' := by
  unfold step at h
  split at h
  · cases h
  · cases e with
    | connect nick user host ip internal =>
      cases h
      exact checkDnsbls_exact core (connect_exact hE nick user host ip internal) (Nat.lt_succ_self _)
    | quit id =>
      cases h
      exact quit_exact hE id
    | scan user =>
      cases h
      exact osCmdDnsblscan_exact core user hE
    | setAction act =>
      cases h
      exact (keeps_osCmdSetDnsblaction act s).exact hE
    | exempt source now command ip reason =>
      cases h
      exact (keeps_osCmdDnsblexempt core source now command ip reason s).exact hE
    | config names =>
      cases h
      exact (keeps_dnsblConfigHandler names s).exact hE
    | dnsblAction value =>
      cases h
      exact Keeps.exact (s := s) ⟨rfl, rfl, le_rfl⟩ hE
    | purge =>
      cases h
      exact Keeps.exact (s := s) ⟨rfl, rfl, le_rfl⟩ hE
    | reply id reply now => exact absurd rfl (he id reply now)

/-- What an answer does. -/
theorem reply_eq {core : Core} {s s' : State} {id now : ℕ} {reply : Option Addr}
    (h : step core s (.reply id reply now) = some s') :
    ∃ c, s.lookup? id = some c ∧
      s' = blacklistDnsCallback c reply now { s with lookups := s.lookups.filter (·.id ≠ id) } := by
  unfold step at h
  split at h
  · cases h
  · simp only [handle, Option.map_eq_some_iff] at h
    obtain ⟨c, hc, rfl⟩ := h
    exact ⟨c, hc, rfl⟩

theorem user?_isSome {s : State} {u : User} (hu : u ∈ s.users) : ∃ v, s.user? u.id = some v := by
  have h : (s.users.find? (·.id = u.id)).isSome := by
    rw [List.find?_isSome]
    exact ⟨u, hu, by simp⟩
  exact Option.isSome_iff_exists.mp h

/-- An answer that can be handled is handled: the lists stay exact, and the
lookup has left its list. -/
theorem answerable_live {core : Core} {s s' : State} {id now : ℕ} {reply : Option Addr} (hE : Exact s)
    (h : step core s (.reply id reply now) = some s') (hA : Answerable s (.reply id reply now)) :
    Exact s' ∧ RepliesLive s (.reply id reply now) s' := by
  obtain ⟨c, hc, rfl⟩ := reply_eq h
  obtain ⟨⟨u, hu, hcu⟩, hb, hl⟩ := hA c hc
  obtain ⟨hmem, rfl⟩ := lookup?_eq_some hc
  set s₀ : State := { s with lookups := s.lookups.filter (·.id ≠ c.id) } with hs₀
  have hk := keeps_garbageReply c.blacklist now reply s₀
  have hthere : ∃ v, (garbageReply c.blacklist now reply s₀).user? u.id = some v := by
    obtain ⟨w, hw, hid, -⟩ := exists_same hk.users.symm hu
    rw [← hid]
    exact user?_isSome hw
  have hkeep : Keeps (s₀.dequeued u.id c.id) (blacklistDnsCallback c reply now s₀) := by
    rw [callback_unlisted hcu hl hthere]
    exact hk.dequeued u.id c.id
  have hex := hkeep.exact (reply_exact hE hmem hcu)
  refine ⟨hex, hex.queries, fun id' reply' now' c' he hc' => ?_⟩
  cases he
  rw [hc, Option.some.injEq] at hc'
  subst hc'
  refine ⟨Or.inr ⟨⟨u, hu, hcu⟩, hb⟩, fun w hw hwu => ?_⟩
  rw [hex.queries w hw]
  intro hin
  obtain ⟨d, hd, hid⟩ := List.mem_map.mp hin
  have hd : d ∈ s.lookups.filter (·.id ≠ c.id) := by
    rw [← show _ = s.lookups.filter (·.id ≠ c.id) from hkeep.lookups]
    exact List.mem_of_mem_filter hd
  exact absurd hid (by simpa using (List.mem_filter.mp hd).2)

/-- An answer for which the law holds can be handled. -/
theorem live_answerable {core : Core} {s s' : State} {id now : ℕ} {reply : Option Addr} (hE : Exact s)
    (h : step core s (.reply id reply now) = some s') (hL : RepliesLive s (.reply id reply now) s') :
    Answerable s (.reply id reply now) := by
  intro c hc
  obtain ⟨hlive, hgone⟩ := hL.2 id reply now c rfl hc
  obtain ⟨hmem, hid⟩ := lookup?_eq_some hc
  obtain ⟨uid, huid, -⟩ := hE.lookupUser c hmem
  rcases hlive with hnone | ⟨⟨u, hu, hcu⟩, hb⟩
  · rw [huid] at hnone
    cases hnone
  refine ⟨⟨u, hu, hcu⟩, hb, ?_⟩
  by_contra hl
  -- a listing returns before the lookup leaves the list
  obtain ⟨c', hc', rfl⟩ := reply_eq h
  rw [hc, Option.some.injEq] at hc'
  subst hc'
  rw [Bool.not_eq_false] at hl
  have heq : blacklistDnsCallback c reply now { s with lookups := s.lookups.filter (·.id ≠ id) } =
      dnsblHit u.id c.blacklist { s with lookups := s.lookups.filter (·.id ≠ id) } := by
    simp only [blacklistDnsCallback, hcu, hl, if_true]
  rw [heq] at hgone
  have hk := keeps_dnsblHit u.id c.blacklist { s with lookups := s.lookups.filter (·.id ≠ id) }
  obtain ⟨v, hv, hvid, hvq⟩ := exists_same hk.users.symm hu
  apply hgone v hv (by rw [hvid, hcu])
  have hq := hE.queries u hu
  unfold dnsblQueries at hq ⊢
  rw [hvq, hq, List.mem_map]
  exact ⟨c, List.mem_filter.mpr ⟨hmem, by simp [hcu]⟩, hid⟩

/-! ### What a lookup points to -/

/-- The user and the blacklist of the lookup are there. -/
def Live (s : State) (c : BlacklistClient) : Prop :=
  (∃ u ∈ s.users, c.u = some u.id) ∧ ∃ b ∈ s.blacklistList, b.id = c.blacklist

/-- The event starts the lookup. -/
def Starts (core : Core) (c : BlacklistClient) (s : State) (e : Event) : Prop :=
  c ∉ s.lookups ∧ ∃ s', step core s e = some s' ∧ c ∈ s'.lookups

/-- The event takes away what the lookup points to: its user quits, or the blacklists
are purged. -/
def Ends (c : BlacklistClient) : Event → Prop
  | .quit u => c.u = some u
  | .purge => True
  | _ => False

/-- Every answer in the run of `es` is no listing, and nothing was taken away since
its lookup was started. -/
def AnsweredInTime (core : Core) (es : List Event) : Prop :=
  ∀ pre id reply now post t c, es = pre ++ Event.reply id reply now :: post →
    Run.exec (step core) init pre = some t → t.crashed = false → t.lookup? id = some c →
      listed reply = false ∧ Run.Since (step core) (fun _ e => Ends c e) (Starts core c) init pre

def userIds (s : State) : List ℕ := s.users.map (·.id)

def blacklistIds (s : State) : List ℕ := s.blacklistList.map (·.id)

theorem live_iff {s : State} {c : BlacklistClient} :
    Live s c ↔ (∃ i ∈ userIds s, c.u = some i) ∧ c.blacklist ∈ blacklistIds s := by
  simp [Live, userIds, blacklistIds]

/-- Nobody has come or gone, nor has a blacklist gone, and a new lookup points to what
is there. -/
structure Still (s s' : State) : Prop where
  users : userIds s' = userIds s
  blacklists : blacklistIds s' = blacklistIds s
  next : s.next ≤ s'.next
  lookups : ∀ c ∈ s'.lookups, c ∈ s.lookups ∨ Live s c

theorem Still.refl (s : State) : Still s s := ⟨rfl, rfl, le_rfl, fun _ hc => Or.inl hc⟩

theorem Still.trans {a b c : State} (h : Still a b) (h' : Still b c) : Still a c where
  users := h'.users.trans h.users
  blacklists := h'.blacklists.trans h.blacklists
  next := h.next.trans h'.next
  lookups := fun d hd => by
    rcases h'.lookups d hd with hd | hd
    · exact h.lookups d hd
    · rw [live_iff, h.users, h.blacklists, ← live_iff] at hd
      exact Or.inr hd

theorem Keeps.still {s s' : State} (h : Keeps s s') (hb : blacklistIds s' = blacklistIds s) : Still s s' where
  users := by
    have hids := congrArg (List.map Prod.fst) h.users
    rw [List.map_map, List.map_map] at hids
    exact hids
  blacklists := hb
  next := h.next
  lookups := fun c hc => Or.inl (h.lookups ▸ hc)

theorem blacklistIds_updBlacklist (s : State) (b : ℕ) {f : Blacklist → Blacklist} (hf : ∀ b, (f b).id = b.id) :
    blacklistIds (s.updBlacklist b f) = blacklistIds s := by
  rw [blacklistIds, State.updBlacklist, List.map_map]
  refine List.map_congr_left fun b' _ => ?_
  rw [Function.comp_apply]
  split
  · exact hf b'
  · rfl

theorem userIds_updUser (s : State) (u : ℕ) {f : User → User} (hf : ∀ u, (f u).id = u.id) :
    userIds (s.updUser u f) = userIds s := by
  rw [userIds, State.updUser, List.map_map]
  refine List.map_congr_left fun u' _ => ?_
  rw [Function.comp_apply]
  split
  · exact hf u'
  · rfl

theorem still_crash (s : State) : Still s s.crash := (keeps_crash s).still rfl

theorem still_initiate {s : State} {blptr : ℕ} {u : User} (hb : blptr ∈ blacklistIds s)
    (hu : u.id ∈ userIds s) : Still s (initiateBlacklistDnsquery blptr u s) := by
  unfold initiateBlacklistDnsquery
  cases u.ip with
  | none => exact still_crash s
  | some ip =>
    refine ⟨?_, ?_, Nat.le_succ _, fun c hc => ?_⟩
    · exact userIds_updUser { s with lookups := _, next := _ } u.id fun _ => rfl
    · exact blacklistIds_updBlacklist (State.updUser { s with lookups := _, next := _ } u.id _) blptr fun _ => rfl
    · rcases List.mem_append.mp hc with hc | hc
      · exact Or.inl hc
      · rw [List.mem_singleton.mp hc]
        exact Or.inr (live_iff.mpr ⟨⟨u.id, hu, rfl⟩, hb⟩)

/-- A round of lookups in blacklists that are there. -/
theorem still_lookups {u : User} : ∀ (bs : List Blacklist) {s : State}, (∀ b ∈ bs, b.id ∈ blacklistIds s) →
    u.id ∈ userIds s → Still s (bs.foldl (lookupBlacklist u) s)
  | [], s, _, _ => .refl s
  | b :: bs, s, hbs, hu => by
    have hround : Still s (lookupBlacklist u s b) := by
      unfold lookupBlacklist
      split
      · exact .refl s
      · have hids := blacklistIds_updBlacklist s b.id (f := fun b => { b with status := 0 }) fun _ => rfl
        have hmark := (keeps_updBlacklist s b.id fun b => { b with status := 0 }).still hids
        refine hmark.trans (still_initiate ?_ hu)
        rw [hids]
        exact hbs b List.mem_cons_self
    refine hround.trans (still_lookups bs ?_ ?_)
    · rw [hround.blacklists]
      exact fun b' hb' => hbs b' (List.mem_cons_of_mem b hb')
    · rwa [hround.users]

theorem still_lookupBlacklists {s : State} {u : User} (hu : u.id ∈ userIds s) : Still s (lookupBlacklists u s) :=
  still_lookups s.blacklistList (fun _ hb => List.mem_map_of_mem hb) hu

theorem still_checkDnsbls (core : Core) {s : State} {u : User} (hu : u.id ∈ userIds s) :
    Still s (checkDnsbls core u s) := by
  have hlook := still_lookupBlacklists hu
  have hcrash := still_crash s
  unfold checkDnsbls
  repeat' split
  all_goals first | exact Still.refl s | assumption

theorem still_osCmdDnsblscan (core : Core) (user : Option CStr) (s : State) :
    Still s (osCmdDnsblscan core user s) := by
  unfold osCmdDnsblscan
  cases user with
  | none => exact (keeps_send s _).still rfl
  | some user =>
    simp only
    cases hf : s.users.find? (fun u => core.irccasecmp u.nick user) with
    | none => exact (keeps_send s _).still rfl
    | some u =>
      have hlook := still_lookupBlacklists (List.mem_map_of_mem (List.mem_of_find?_eq_some hf))
      dsimp only
      split
      · exact hlook
      · exact hlook.trans ((keeps_send _ _).still rfl)

theorem still_blacklistDnsCallback (c : BlacklistClient) (reply : Option Addr) (now : ℕ) (s : State) :
    Still s (blacklistDnsCallback c reply now s) := by
  have hhit (u : ℕ) : Still s (dnsblHit u c.blacklist s) := by
    refine (keeps_dnsblHit u c.blacklist s).still ?_
    unfold dnsblHit
    dsimp only
    repeat' split
    all_goals rfl
  have hgarbage : Still s (garbageReply c.blacklist now reply s) := by
    refine (keeps_garbageReply c.blacklist now reply s).still ?_
    unfold garbageReply
    repeat' split
    all_goals first | rfl | exact blacklistIds_updBlacklist s _ fun _ => rfl
  unfold blacklistDnsCallback
  cases c.u with
  | none => exact .refl s
  | some u =>
    simp only
    split
    · exact hhit u
    · cases (garbageReply c.blacklist now reply s).user? u with
      | none => exact hgarbage.trans (still_crash _)
      | some v =>
        refine hgarbage.trans ⟨?_, rfl, le_rfl, fun _ hc => Or.inl hc⟩
        exact userIds_updUser _ u fun _ => rfl

/-- Objects have numbers that were given out, also where a lookup points to one that is
gone. -/
structure Known (s : State) : Prop where
  user : ∀ i ∈ userIds s, i < s.next
  blacklist : ∀ i ∈ blacklistIds s, i < s.next
  lookup : ∀ c ∈ s.lookups, (∃ u < s.next, c.u = some u) ∧ c.blacklist < s.next

/-- What an event does to the objects of the state it finds: of the users and the
blacklists that there could be only `quit` and `purge` take some away, and a lookup
that is new points to what is there. -/
structure Moves (s : State) (e : Event) (s' : State) : Prop where
  known : Known s'
  users : ∀ i < s.next, (i ∈ userIds s' ↔ i ∈ userIds s ∧ e ≠ .quit i)
  blacklists : ∀ i < s.next, (i ∈ blacklistIds s' ↔ i ∈ blacklistIds s ∧ e ≠ .purge)
  lookups : ∀ c ∈ s'.lookups, c ∈ s.lookups ∨ Live s' c

theorem Still.known {s s' : State} (h : Still s s') (hK : Known s) : Known s' where
  user := fun i hi => (hK.user i (h.users ▸ hi)).trans_le h.next
  blacklist := fun i hi => (hK.blacklist i (h.blacklists ▸ hi)).trans_le h.next
  lookup := fun c hc => by
    rcases h.lookups c hc with hc | hc
    · obtain ⟨⟨u, hu, hcu⟩, hb⟩ := hK.lookup c hc
      exact ⟨⟨u, hu.trans_le h.next, hcu⟩, hb.trans_le h.next⟩
    · obtain ⟨⟨u, hu, hcu⟩, hb⟩ := live_iff.mp hc
      exact ⟨⟨u, (hK.user u hu).trans_le h.next, hcu⟩, (hK.blacklist _ hb).trans_le h.next⟩

theorem Still.live {s s' : State} (h : Still s s') (c : BlacklistClient) : Live s' c ↔ Live s c := by
  rw [live_iff, live_iff, h.users, h.blacklists]

theorem Still.moves {s s' : State} {e : Event} (h : Still s s') (hK : Known s) (hq : ∀ i, e ≠ .quit i)
    (hp : e ≠ .purge) : Moves s e s' where
  known := h.known hK
  users := fun i _ => by rw [h.users, and_iff_left (hq i)]
  blacklists := fun i _ => by rw [h.blacklists, and_iff_left hp]
  lookups := fun c hc => (h.lookups c hc).imp_right (h.live c).mpr

theorem addUser_known {s : State} (hK : Known s) {u : User} (hu : u.id = s.next) : Known (s.addUser u) where
  user := fun i hi => by
    show i < s.next + 1
    rw [userIds, State.addUser, List.map_append] at hi
    rcases List.mem_append.mp hi with hi | hi
    · exact Nat.lt_succ_of_lt (hK.user i hi)
    · have hnew : i = s.next := (List.mem_singleton.mp hi).trans hu
      rw [hnew]
      exact Nat.lt_succ_self _
  blacklist := fun i hi => Nat.lt_succ_of_lt (hK.blacklist i hi)
  lookup := fun c hc => by
    obtain ⟨⟨v, hv, hcv⟩, hb⟩ := hK.lookup c hc
    exact ⟨⟨v, Nat.lt_succ_of_lt hv, hcv⟩, Nat.lt_succ_of_lt hb⟩

/-- A new user is none that a lookup could point to. -/
theorem connect_moves {core : Core} {s : State} {u : User} {e : Event} (hK : Known s) (hu : u.id = s.next)
    (hq : ∀ i, e ≠ .quit i) (hp : e ≠ .purge) : Moves s e (checkDnsbls core u (s.addUser u)) := by
  have hids : userIds (s.addUser u) = userIds s ++ [s.next] := by
    rw [userIds, State.addUser, List.map_append, List.map_singleton, hu]
    rfl
  have hstill : Still (s.addUser u) (checkDnsbls core u (s.addUser u)) := by
    apply still_checkDnsbls
    rw [hids, hu]
    exact List.mem_append_right _ (List.mem_singleton_self _)
  constructor
  · exact hstill.known (addUser_known hK hu)
  · intro i hi
    rw [hstill.users, hids, List.mem_append, List.mem_singleton, or_iff_left hi.ne, and_iff_left (hq i)]
  · intro i _
    rw [hstill.blacklists, and_iff_left hp]
    rfl
  · exact fun c hc => (hstill.lookups c hc).imp_right (hstill.live c).mpr

theorem newBlacklist_moves {s : State} {e : Event} (hK : Known s) (hq : ∀ i, e ≠ .quit i) (hp : e ≠ .purge)
    (name : CStr) : Moves s e (newBlacklist name s) := by
  unfold newBlacklist
  dsimp only
  split
  · refine Still.moves ?_ hK hq hp
    exact (keeps_updBlacklist s _ _).still (blacklistIds_updBlacklist s _ fun _ => rfl)
  · have hids (i : ℕ) : i ∈ blacklistIds s ++ [s.next] ↔ i ∈ blacklistIds s ∨ i = s.next := by
      rw [List.mem_append, List.mem_singleton]
    constructor
    · constructor
      · exact fun i hi => Nat.lt_succ_of_lt (hK.user i hi)
      · intro i hi
        rw [blacklistIds, List.map_append] at hi
        rcases (hids i).mp hi with hi | rfl
        · exact Nat.lt_succ_of_lt (hK.blacklist i hi)
        · exact Nat.lt_succ_self _
      · intro c hc
        obtain ⟨⟨v, hv, hcv⟩, hb⟩ := hK.lookup c hc
        exact ⟨⟨v, Nat.lt_succ_of_lt hv, hcv⟩, Nat.lt_succ_of_lt hb⟩
    · exact fun i _ => (and_iff_left (hq i)).symm
    · intro i hi
      rw [blacklistIds, List.map_append, and_iff_left hp]
      exact (hids i).trans (or_iff_left hi.ne)
    · exact fun c hc => Or.inl hc

theorem newBlacklist_next (name : CStr) (s : State) : s.next ≤ (newBlacklist name s).next :=
  (keeps_newBlacklist name s).next

/-- Blacklists are added one after another. -/
theorem dnsblConfigHandler_moves {e : Event} (hq : ∀ i, e ≠ .quit i) (hp : e ≠ .purge) :
    ∀ (names : List CStr) {s : State}, Known s → Moves s e (dnsblConfigHandler names s)
  | [], s, hK => (Still.refl s).moves hK hq hp
  | n :: names, s, hK => by
    have hn := newBlacklist_moves hK hq hp n
    have hrest := dnsblConfigHandler_moves hq hp names hn.known
    have hnext := newBlacklist_next n s
    constructor
    · exact hrest.known
    · intro i hi
      exact (hrest.users i (hi.trans_le hnext)).trans ((and_iff_left (hq i)).trans (hn.users i hi))
    · intro i hi
      exact (hrest.blacklists i (hi.trans_le hnext)).trans ((and_iff_left hp).trans (hn.blacklists i hi))
    · intro c hc
      exact Or.inl ((keeps_dnsblConfigHandler (n :: names) s).lookups ▸ hc)

/-- **What a step does to the objects.** -/
theorem step_moves {core : Core} {s s' : State} {e : Event} (hK : Known s) (h : step core s e = some s') :
    Moves s e s' := by
  unfold step at h
  split at h
  · cases h
  cases e with
  | connect nick user host ip internal =>
    cases h
    exact connect_moves hK rfl (fun _ => nofun) nofun
  | quit id =>
    cases h
    have hids : ∀ i, i ∈ userIds { s with users := s.users.filter (·.id ≠ id) } ↔
        i ∈ userIds s ∧ Event.quit id ≠ .quit i := by
      intro i
      simp only [userIds, List.mem_map, List.mem_filter, decide_eq_true_eq, ne_eq, Event.quit.injEq]
      constructor
      · rintro ⟨u, ⟨hu, hne⟩, rfl⟩
        exact ⟨⟨u, hu, rfl⟩, fun h => hne h.symm⟩
      · rintro ⟨⟨u, hu, rfl⟩, hne⟩
        exact ⟨u, ⟨hu, fun h => hne h.symm⟩, rfl⟩
    refine ⟨⟨fun i hi => hK.user i ((hids i).mp hi).1, hK.blacklist, hK.lookup⟩, fun i _ => hids i, ?_, ?_⟩
    · exact fun i _ => (and_iff_left nofun).symm
    · exact fun c hc => Or.inl hc
  | scan user =>
    cases h
    exact (still_osCmdDnsblscan core user s).moves hK (fun _ => nofun) nofun
  | setAction act =>
    cases h
    refine ((keeps_osCmdSetDnsblaction act s).still ?_).moves hK (fun _ => nofun) nofun
    unfold osCmdSetDnsblaction
    repeat' split
    all_goals rfl
  | exempt source now command ip reason =>
    cases h
    refine ((keeps_osCmdDnsblexempt core source now command ip reason s).still ?_).moves hK (fun _ => nofun) nofun
    unfold osCmdDnsblexempt
    repeat' split
    all_goals rfl
  | config names =>
    cases h
    exact dnsblConfigHandler_moves (e := .config names) (fun _ => nofun) nofun names hK
  | dnsblAction value =>
    cases h
    have hkeeps : Keeps s (dnsblActionItem value s) := ⟨rfl, rfl, le_rfl⟩
    exact (hkeeps.still rfl).moves hK (fun _ => nofun) nofun
  | purge =>
    cases h
    have hempty : ∀ i, i ∉ blacklistIds (destroyBlacklists s) := fun i => List.not_mem_nil
    refine ⟨⟨hK.user, fun i hi => absurd hi (hempty i), hK.lookup⟩, ?_, ?_, fun c hc => Or.inl hc⟩
    · exact fun i _ => (and_iff_left nofun).symm
    · exact fun i _ => iff_of_false (hempty i) fun h => h.2 rfl
  | reply id reply now =>
    obtain ⟨c, -, rfl⟩ := Option.map_eq_some_iff.mp h
    have hcut : Still s { s with lookups := s.lookups.filter (·.id ≠ id) } :=
      ⟨rfl, rfl, le_rfl, fun c hc => Or.inl (List.mem_of_mem_filter hc)⟩
    exact (hcut.trans (still_blacklistDnsCallback c reply now _)).moves hK (fun _ => nofun) nofun

/-- What a lookup that is out points to stays until it ends. -/
theorem Moves.live {s s' : State} {e : Event} (h : Moves s e s') (hK : Known s) {c : BlacklistClient}
    (hc : c ∈ s.lookups) : Live s' c ↔ Live s c ∧ ¬ Ends c e := by
  obtain ⟨⟨u, hu, hcu⟩, hb⟩ := hK.lookup c hc
  have huser (s : State) : (∃ i ∈ userIds s, c.u = some i) ↔ u ∈ userIds s := by
    simp [hcu]
  rw [live_iff, live_iff, huser, huser, h.users u hu, h.blacklists _ hb]
  have hends : ¬ Ends c e ↔ e ≠ .quit u ∧ e ≠ .purge := by
    cases e <;> simp [Ends, hcu, eq_comm]
  rw [hends]
  tauto

/-- **What a lookup points to is there exactly if nothing took it away since the lookup
was started.** -/
theorem live_iff_since {core : Core} {es : List Event} {s : State} (h : Run.exec (step core) init es = some s) :
    ∀ c ∈ s.lookups, Live s c ↔ Run.Since (step core) (fun _ e => Ends c e) (Starts core c) init es := by
  refine (Run.exec_history (I := fun es s => Run.exec (step core) init es = some s ∧ Known s ∧ ∀ c ∈ s.lookups,
    Live s c ↔ Run.Since (step core) (fun _ e => Ends c e) (Starts core c) init es) ?_ ?_ h).2.2
  · refine ⟨rfl, ⟨?_, ?_, ?_⟩, ?_⟩ <;> simp [init, userIds, blacklistIds]
  · intro es s e s' ⟨hes, hK, ih⟩ hs
    have hmoves := step_moves hK hs
    refine ⟨(Run.exec_snoc hes e).trans hs, hmoves.known, fun c hc => ?_⟩
    rw [Run.since_snoc hes hs]
    by_cases hold : c ∈ s.lookups
    · have hno : ¬ Starts core c s e := fun h => h.1 hold
      rw [or_iff_right hno, ← ih c hold, hmoves.live hK hold]
    · have hnew := (hmoves.lookups c hc).resolve_left hold
      exact iff_of_true hnew (Or.inl ⟨hold, s', hs, hc⟩)

/-- A run whose answers can be handled is one whose answers come in time. -/
theorem answerable_iff_inTime (core : Core) (es : List Event) :
    Run.Along (step core) (fun s e _ => Answerable s e) init es ↔ AnsweredInTime core es := by
  rw [Run.along_iff_split]
  constructor
  · intro h pre id reply now post t c heq ht hcr hc
    have hstep : step core t (.reply id reply now) =
        some (blacklistDnsCallback c reply now { t with lookups := t.lookups.filter (·.id ≠ id) }) := by
      simp [step, hcr, handle, hc]
    obtain ⟨hu, hb, hl⟩ := h pre _ post heq t _ ht hstep c hc
    exact ⟨hl, (live_iff_since ht c (lookup?_eq_some hc).1).mp ⟨hu, hb⟩⟩
  · intro h pre e post heq t t' ht hstep
    cases e with
    | reply id reply now =>
      intro c hc
      have hcr : t.crashed = false := by
        unfold step at hstep
        split at hstep
        · cases hstep
        · rename_i hcr
          simpa using hcr
      obtain ⟨hl, hsince⟩ := h pre id reply now post t c heq ht hcr hc
      obtain ⟨hu, hb⟩ := (live_iff_since ht c (lookup?_eq_some hc).1).mpr hsince
      exact ⟨hu, hb, hl⟩
    | _ => trivial

/-- **An answer touches live objects, and the lists stay exact, along the runs
whose answers are no listings and come before their user quits and before a purge,
and only there.** -/
theorem replies_live_iff (core : Core) (es : List Event) :
    Run.Along (step core) RepliesLive init es ↔ AnsweredInTime core es := by
  rw [← answerable_iff_inTime]
  symm
  refine Run.along_congr Exact ?_ ?_ init_exact
  · intro s e s' hE h
    by_cases he : ∃ id reply now, e = .reply id reply now
    · obtain ⟨id, reply, now, rfl⟩ := he
      exact ⟨fun hA => (answerable_live hE h hA).2, live_answerable hE h⟩
    · have hne : ∀ id reply now, e ≠ .reply id reply now := fun id reply now h => he ⟨id, reply, now, h⟩
      refine iff_of_true ?_ ⟨(step_exact hE h hne).queries, fun id reply now c heq => absurd heq (hne _ _ _)⟩
      cases e <;> first | trivial | exact absurd rfl (hne _ _ _)
  · intro s e s' hE h hA
    by_cases he : ∃ id reply now, e = .reply id reply now
    · obtain ⟨id, reply, now, rfl⟩ := he
      exact (answerable_live hE h hA).1
    · exact step_exact hE h fun id reply now h => he ⟨id, reply, now, h⟩

/-- A user quits while a lookup is out: the answer finds its lookup, and reads
a user that is gone. -/
theorem reply_after_quit :
    ¬ Run.Along (step ⟨Char.toLower, fun _ => ""⟩) RepliesLive init
      [.config ["rbl.efnetrbl.org".toList], .setAction (some "KLINE".toList),
        .connect "eve".toList "eve".toList "example.net".toList (some "192.0.2.7".toList) false, .quit 1,
        .reply 2 none 0] := by
  intro h
  obtain ⟨-, h⟩ := h _ rfl
  obtain ⟨-, h⟩ := h _ rfl
  obtain ⟨-, h⟩ := h _ rfl
  obtain ⟨-, h⟩ := h _ rfl
  obtain ⟨⟨-, h⟩, -⟩ := h _ rfl
  have hlive := (h 2 none 0 ⟨2, 0, some 1⟩ rfl (by decide)).1
  exact absurd hlive (by decide)

end Dnsbl
end AthemeContrib
