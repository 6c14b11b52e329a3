/-
# dnsbl: the name a lookup asks for

The address of a user is scanned for four numbers, and asked for is the name that has
them in reverse in front of the blacklist's, `2.0.0.127.torbl.ahbl.org` or whatever, cut to
255 characters. What the scan does not assign stays what happened to be in memory, so the
name depends on that exactly if the address does not start with four numbers
(`queryName_clean_iff`). A blacklist's name is no longer than what is asked for, so it may
be cut; where it is not, two names are the same only for the same address in the same
blacklist, whatever was configured and purged before (`names_apart`).

Key definitions: `queryName`, `Quad`, `Fits`, `NamesApart`.
Key theorems: `queryName_clean_iff`, `queryName_quad`, `step_listed`, `names_apart`.
-/
import AthemeContrib.Dnsbl.Model
import AthemeContrib.Lib.Scanf
import Mathlib.Data.List.Nodup
import Mathlib.Data.List.Pairwise
import Mathlib.Data.List.TakeDrop

namespace AthemeContrib
namespace Dnsbl

open CStr Scanf

/-- `"%u.%u.%u.%u"` -/
def quadFormat : List Directive := [.u, .lit '.', .u, .lit '.', .u, .lit '.', .u]

/-- `ip[i]` after `sscanf(u->ip, "%u.%u.%u.%u", &ip[3], &ip[2], &ip[1], &ip[0])`, where
`memory` is what was there before. -/
def scannedIp (memory : ℕ → ℕ) (ip : CStr) (i : ℕ) : ℕ := ((scan quadFormat ip).1[3 - i]?).getD (memory i)

/-- The name that `initiate_blacklist_dnsquery` asks for: `buf`. -/
def queryName (memory : ℕ → ℕ) (ip host : CStr) : CStr :=
  let ip := scannedIp memory ip
  (print quadFormat [ip 0, ip 1, ip 2, ip 3] ++ '.' :: host).take IRCD_RES_HOSTLEN

/-- An IPv4 address. -/
structure Quad where
  a : Fin 256
  b : Fin 256
  c : Fin 256
  d : Fin 256
deriving DecidableEq

def Quad.numbers (q : Quad) : List ℕ := [q.a, q.b, q.c, q.d]

def Quad.text (q : Quad) : CStr := print quadFormat q.numbers

def Quad.reverse (q : Quad) : Quad := ⟨q.d, q.c, q.b, q.a⟩

/-- There is room for the whole name. -/
def Fits (q : Quad) (host : CStr) : Prop := q.text.length + 1 + host.length ≤ IRCD_RES_HOSTLEN

/-- What is asked for in the blacklists about IPv4 addresses: whole names, where they
fit, that are the same (up to case) for the same address in the same list only. -/
structure NamesApart (s : State) : Prop where
  whole : ∀ b ∈ s.blacklistList, ∀ (q : Quad) (memory : ℕ → ℕ),
    queryName memory q.text b.host = q.reverse.text ++ '.' :: b.host ↔ Fits q b.host
  apart : ∀ b ∈ s.blacklistList, ∀ b' ∈ s.blacklistList, ∀ (q q' : Quad) (memory memory' : ℕ → ℕ),
    Fits q b.host → Fits q' b'.host →
      (strcasecmp (queryName memory q.text b.host) (queryName memory' q'.text b'.host) = true ↔
        q = q' ∧ b = b')

example : queryName (fun _ => 0) "127.0.0.2".toList "torbl.ahbl.org".toList =
    "2.0.0.127.torbl.ahbl.org".toList := by decide

/-! ### One name -/

theorem scan_quad (q : Quad) {rest : CStr} (h : ∀ c ∈ rest.head?, isdigit c = false) :
    scan quadFormat (q.text ++ rest) = (q.numbers, some rest) := by
  refine scan_print ⟨rfl, rfl, rfl, h⟩ rfl fun n hn => ?_
  have hlt : ∀ i : Fin 256, (i : ℕ) < 2 ^ 32 := fun i => i.isLt.trans (by decide)
  rcases List.mem_cons.mp hn with rfl | hn
  · exact hlt q.a
  rcases List.mem_cons.mp hn with rfl | hn
  · exact hlt q.b
  rcases List.mem_cons.mp hn with rfl | hn
  · exact hlt q.c
  rw [List.mem_singleton.mp hn]
  exact hlt q.d

theorem queryName_quad (memory : ℕ → ℕ) (q : Quad) (host : CStr) :
    queryName memory q.text host = (q.reverse.text ++ '.' :: host).take IRCD_RES_HOSTLEN := by
  have hscan : scan quadFormat (q.text ++ []) = (q.numbers, some []) := scan_quad q (by simp)
  rw [List.append_nil] at hscan
  unfold queryName scannedIp
  rw [hscan]
  rfl

/-- **The name depends on what was in memory** exactly if the address does not start with
four numbers, with dots between them. -/
theorem queryName_clean_iff (ip host : CStr) :
    (∀ memory memory', queryName memory ip host = queryName memory' ip host) ↔ Matches quadFormat ip := by
  rw [← scan_isSome_iff, ← scan_length_iff rfl]
  have hcount : quadFormat.count .u = 4 := rfl
  rw [hcount]
  constructor
  · intro h
    by_contra hne
    have hlt : (scan quadFormat ip).1.length < 4 := by
      have hle : (scan quadFormat ip).1.length ≤ 4 := scan_length quadFormat ip
      omega
    -- the number that is printed first is scanned last
    have hnone : (scan quadFormat ip).1[3]? = none := List.getElem?_eq_none (by omega)
    have hhead (n : ℕ) (hn : n < 10) : (queryName (fun _ => n) ip host).head? = some (Nat.digitChar n) := by
      have hfirst : scannedIp (fun _ => n) ip 0 = n := by
        rw [scannedIp, hnone, Option.getD_none]
      simp only [queryName]
      rw [hfirst, quadFormat, print, List.headD_cons, Nat.toDigits_of_lt_base hn]
      rfl
    have h01 := congrArg List.head? (h (fun _ => 0) fun _ => 1)
    rw [hhead 0 (by decide), hhead 1 (by decide)] at h01
    exact absurd h01 (by decide)
  · intro hlen memory memory'
    have hsome (i : ℕ) : scannedIp memory ip i = scannedIp memory' ip i := by
      unfold scannedIp
      rw [List.getElem?_eq_getElem (by omega)]
      rfl
    simp only [queryName, hsome]

/-- **Two whole names are the same** for the same address and the same name of a list. -/
theorem quad_name_inj {q q' : Quad} {host host' : CStr} :
    strcasecmp (q.text ++ '.' :: host) (q'.text ++ '.' :: host') = true ↔
      q = q' ∧ strcasecmp host host' = true := by
  have hlower (q : Quad) (host : CStr) :
      (q.text ++ '.' :: host).map Char.toLower = q.text ++ '.' :: host.map Char.toLower := by
    have hlit : ∀ c, .lit c ∈ quadFormat → c.toLower = c := by
      intro c hc
      have hdot : c = '.' := by simpa [quadFormat] using hc
      rw [hdot]
      rfl
    rw [List.map_append, Quad.text, map_toLower_print hlit]
    rfl
  have hdot (host : CStr) : ∀ c ∈ ('.' :: host).head?, isdigit c = false := by simp [isdigit]
  rw [strcasecmp_iff, hlower, hlower, strcasecmp_iff]
  constructor
  · intro h
    have hscan := congrArg (scan quadFormat) h
    rw [scan_quad q (hdot _), scan_quad q' (hdot _), Prod.mk.injEq, Option.some.injEq] at hscan
    obtain ⟨hnumbers, hhost⟩ := hscan
    refine ⟨?_, (List.cons.inj hhost).2⟩
    obtain ⟨a, b, c, d⟩ := q
    obtain ⟨a', b', c', d'⟩ := q'
    simpa [Quad.numbers, Fin.val_inj] using hnumbers
  · rintro ⟨rfl, h⟩
    rw [h]

theorem reverse_inj {q q' : Quad} : q.reverse = q'.reverse ↔ q = q' := by
  obtain ⟨a, b, c, d⟩ := q
  obtain ⟨a', b', c', d'⟩ := q'
  simp [Quad.reverse]
  tauto

theorem reverse_length (q : Quad) : q.reverse.text.length = q.text.length := by
  simp only [Quad.text, Quad.reverse, Quad.numbers, quadFormat, print, List.headD_cons, List.tail_cons,
    List.length_append, List.length_cons, List.length_nil]
  omega

/-- A name is asked for whole exactly if there is room for it. -/
theorem whole_iff (memory : ℕ → ℕ) (q : Quad) (host : CStr) :
    queryName memory q.text host = q.reverse.text ++ '.' :: host ↔ Fits q host := by
  rw [queryName_quad, List.take_eq_self_iff, List.length_append, List.length_cons, reverse_length, Fits]
  omega

/-! ### The configured lists -/

/-- The names of the lists, in lower case. -/
def lowered (s : State) : List CStr := s.blacklistList.map fun b => b.host.map Char.toLower

/-- Two names are different, or as long as they can be. -/
def Apart (h h' : CStr) : Prop := h = h' → h.length = IRCD_RES_HOSTLEN

instance (name : Blacklist → CStr) : Std.Symm fun b b' => Apart (name b) (name b') where
  symm _ _ hapart heq := heq ▸ hapart heq.symm

/-- The lists are objects of their own, with names apart. -/
structure Listed (s : State) : Prop where
  idLt : ∀ b ∈ s.blacklistList, b.id < s.next
  ids : (s.blacklistList.map (·.id)).Nodup
  short : ∀ h ∈ lowered s, h.length ≤ IRCD_RES_HOSTLEN
  apart : (lowered s).Pairwise Apart

theorem init_listed : Listed init := by
  constructor <;> simp [init, lowered]

/-- What a step leaves of the lists that is looked at here. -/
structure Leaves (s s' : State) : Prop where
  ids : s'.blacklistList.map (·.id) = s.blacklistList.map (·.id)
  lowered : lowered s' = lowered s
  next : s.next ≤ s'.next

theorem Leaves.refl (s : State) : Leaves s s := ⟨rfl, rfl, le_rfl⟩

theorem Leaves.trans {s s' s'' : State} (h : Leaves s s') (h' : Leaves s' s'') : Leaves s s'' :=
  ⟨h'.ids.trans h.ids, h'.lowered.trans h.lowered, h.next.trans h'.next⟩

theorem Leaves.listed {s s' : State} (h : Leaves s s') (hs : Listed s) : Listed s' := by
  refine ⟨fun b hb => ?_, h.ids ▸ hs.ids, h.lowered ▸ hs.short, h.lowered ▸ hs.apart⟩
  have hid : b.id ∈ s.blacklistList.map (·.id) := h.ids ▸ List.mem_map_of_mem hb
  obtain ⟨b₀, hb₀, heq⟩ := List.mem_map.mp hid
  exact heq ▸ (hs.idLt b₀ hb₀).trans_le h.next

theorem map_updBlacklist {β : Type} {s : State} {id : ℕ} {f : Blacklist → Blacklist} {g : Blacklist → β}
    (hf : ∀ b ∈ s.blacklistList, b.id = id → g (f b) = g b) :
    (s.updBlacklist id f).blacklistList.map g = s.blacklistList.map g := by
  rw [State.updBlacklist, List.map_map]
  refine List.map_congr_left fun b hb => ?_
  rw [Function.comp_apply]
  split
  · rename_i hid
    exact hf b hb hid
  · rfl

theorem leaves_updBlacklist (s : State) (id : ℕ) {f : Blacklist → Blacklist} (hid : ∀ b, (f b).id = b.id)
    (hhost : ∀ b, (f b).host = b.host) : Leaves s (s.updBlacklist id f) :=
  ⟨map_updBlacklist fun b _ _ => hid b, map_updBlacklist fun b _ _ => by rw [hhost], le_rfl⟩

theorem leaves_initiate (blptr : ℕ) (u : User) (s : State) :
    Leaves s (initiateBlacklistDnsquery blptr u s) := by
  unfold initiateBlacklistDnsquery
  cases u.ip with
  | none => exact ⟨rfl, rfl, le_rfl⟩
  | some ip =>
    have h : Leaves s (s.updBlacklist blptr fun b => { b with refcount := b.refcount + 1 }) :=
      leaves_updBlacklist s blptr (fun _ => rfl) fun _ => rfl
    exact ⟨h.ids, h.lowered, Nat.le_succ _⟩

theorem leaves_lookupBlacklists (u : User) (s : State) : Leaves s (lookupBlacklists u s) := by
  unfold lookupBlacklists
  generalize s.blacklistList = bs
  induction bs generalizing s with
  | nil => exact .refl s
  | cons b bs ih =>
    have hround : Leaves s (lookupBlacklist u s b) := by
      have hb : Leaves s (s.updBlacklist b.id fun b => { b with status := 0 }) :=
        leaves_updBlacklist s b.id (fun _ => rfl) fun _ => rfl
      unfold lookupBlacklist
      split
      · exact .refl s
      · exact hb.trans (leaves_initiate b.id u _)
    exact hround.trans (ih _)

theorem leaves_checkDnsbls (core : Core) (u : User) (s : State) : Leaves s (checkDnsbls core u s) := by
  have hlook := leaves_lookupBlacklists u s
  have hcrash : Leaves s s.crash := ⟨rfl, rfl, le_rfl⟩
  unfold checkDnsbls
  repeat' split
  all_goals first | exact .refl s | assumption

theorem leaves_osCmdDnsblscan (core : Core) (user : Option CStr) (s : State) :
    Leaves s (osCmdDnsblscan core user s) := by
  unfold osCmdDnsblscan
  split
  · exact ⟨rfl, rfl, le_rfl⟩
  · split
    · have h := leaves_lookupBlacklists (by assumption : User) s
      dsimp only
      split
      · exact h
      · exact ⟨h.ids, h.lowered, h.next⟩
    · exact ⟨rfl, rfl, le_rfl⟩

theorem leaves_osCmdSetDnsblaction (act : Option CStr) (s : State) : Leaves s (osCmdSetDnsblaction act s) := by
  unfold osCmdSetDnsblaction
  repeat' split
  all_goals exact ⟨rfl, rfl, le_rfl⟩

theorem leaves_osCmdDnsblexempt (core : Core) (source : CStr) (now : ℕ) (command ip reason : Option CStr)
    (s : State) : Leaves s (osCmdDnsblexempt core source now command ip reason s) := by
  unfold osCmdDnsblexempt
  repeat' split
  all_goals exact ⟨rfl, rfl, le_rfl⟩

theorem leaves_dnsblHit (u blptr : ℕ) (s : State) : Leaves s (dnsblHit u blptr s) := by
  unfold dnsblHit
  dsimp only
  repeat' split
  all_goals exact ⟨rfl, rfl, le_rfl⟩

theorem leaves_garbageReply (blptr now : ℕ) (reply : Option Addr) (s : State) :
    Leaves s (garbageReply blptr now reply s) := by
  unfold garbageReply
  split
  · exact .refl s
  · split
    · exact ⟨rfl, rfl, le_rfl⟩
    · split
      · exact leaves_updBlacklist s blptr (fun _ => rfl) fun _ => rfl
      · exact .refl s

theorem leaves_blacklistDnsCallback (c : BlacklistClient) (reply : Option Addr) (now : ℕ) (s : State) :
    Leaves s (blacklistDnsCallback c reply now s) := by
  unfold blacklistDnsCallback
  split
  · exact .refl s
  · split
    · exact leaves_dnsblHit _ _ s
    · have h := leaves_garbageReply c.blacklist now reply s
      dsimp only
      split
      · exact ⟨h.ids, h.lowered, h.next⟩
      · exact ⟨h.ids, h.lowered, h.next⟩

/-- **A blacklist that is configured** gets its name again, or is a new one with a name
apart. -/
theorem newBlacklist_listed {s : State} (hs : Listed s) (name : CStr) : Listed (newBlacklist name s) := by
  unfold newBlacklist
  dsimp only
  split
  · rename_i b hfind
    have hb : b ∈ s.blacklistList := List.mem_of_find?_eq_some hfind
    have hsame : strcasecmp b.host name = true := by simpa using List.find?_some hfind
    have hshort : name.length ≤ IRCD_RES_HOSTLEN := by
      have h := hs.short _ (List.mem_map_of_mem hb)
      rwa [List.length_map, strcasecmp_length hsame] at h
    rw [strlcpy_eq_self (Nat.lt_succ_of_le hshort)]
    have hleaves : Leaves s (s.updBlacklist b.id fun b => { b with host := name, lastwarning := 0 }) := by
      refine ⟨map_updBlacklist fun _ _ _ => rfl, map_updBlacklist fun b' hb' hid => ?_, le_rfl⟩
      rw [List.inj_on_of_nodup_map hs.ids hb' hb hid]
      exact (strcasecmp_iff.mp hsame).symm
    exact hleaves.listed hs
  · rename_i hfind
    rw [List.find?_eq_none] at hfind
    have hlen : (strlcpy name (IRCD_RES_HOSTLEN + 1)).length = min IRCD_RES_HOSTLEN name.length :=
      List.length_take
    constructor
    · intro b hb
      rcases List.mem_append.mp hb with hb | hb
      · exact (hs.idLt b hb).trans (Nat.lt_succ_self _)
      · rw [List.mem_singleton.mp hb]
        exact Nat.lt_succ_self _
    · rw [List.map_append, List.nodup_append]
      refine ⟨hs.ids, List.nodup_singleton _, fun id hid id' hid' heq => ?_⟩
      obtain ⟨b, hb, rfl⟩ := List.mem_map.mp hid
      have hnew : id' = s.next := List.mem_singleton.mp hid'
      have hlt := hs.idLt b hb
      omega
    · intro h hh
      rw [lowered, List.map_append] at hh
      rcases List.mem_append.mp hh with hh | hh
      · exact hs.short h hh
      · rw [List.mem_singleton.mp hh, List.length_map, hlen]
        exact Nat.min_le_left _ _
    · rw [lowered, List.map_append]
      refine List.pairwise_append.mpr ⟨hs.apart, List.pairwise_singleton _ _, fun h hh h' hh' heq => ?_⟩
      obtain ⟨b, hb, rfl⟩ := List.mem_map.mp hh
      rw [List.mem_singleton.mp hh'] at heq
      -- the new name was cut, or the list would have been found
      by_cases hcut : name.length ≤ IRCD_RES_HOSTLEN
      · rw [strlcpy_eq_self (Nat.lt_succ_of_le hcut)] at heq
        exact absurd (strcasecmp_iff.mpr heq) (hfind b hb)
      · rw [heq, List.length_map, hlen, Nat.min_eq_left (by omega)]

theorem dnsblConfigHandler_listed : ∀ (names : List CStr) {s : State}, Listed s →
    Listed (dnsblConfigHandler names s)
  | [], _, hs => hs
  | n :: names, _, hs => dnsblConfigHandler_listed names (newBlacklist_listed hs n)

theorem step_listed {core : Core} {s s' : State} {e : Event} (hs : Listed s) (h : step core s e = some s') :
    Listed s' := by
  unfold step at h
  split at h
  · cases h
  · cases e with
    | connect nick user host ip internal =>
      cases h
      have hnew : Leaves s (s.addUser (newUser s nick user host ip internal)) := ⟨rfl, rfl, Nat.le_succ _⟩
      exact (hnew.trans (leaves_checkDnsbls core _ _)).listed hs
    | quit id =>
      cases h
      exact Leaves.listed (s := s) ⟨rfl, rfl, le_rfl⟩ hs
    | scan user =>
      cases h
      exact (leaves_osCmdDnsblscan core user s).listed hs
    | setAction act =>
      cases h
      exact (leaves_osCmdSetDnsblaction act s).listed hs
    | exempt source now command ip reason =>
      cases h
      exact (leaves_osCmdDnsblexempt core source now command ip reason s).listed hs
    | config names =>
      cases h
      exact dnsblConfigHandler_listed names hs
    | dnsblAction value =>
      cases h
      exact Leaves.listed (s := s) ⟨rfl, rfl, le_rfl⟩ hs
    | purge =>
      cases h
      constructor <;> simp [destroyBlacklists, lowered]
    | reply id reply now =>
      obtain ⟨c, -, rfl⟩ := Option.map_eq_some_iff.mp h
      have hleft : Leaves s { s with lookups := s.lookups.filter (·.id ≠ id) } := ⟨rfl, rfl, le_rfl⟩
      exact (hleft.trans (leaves_blacklistDnsCallback c reply now _)).listed hs

/-! ### Every run -/

/-- Lists with names apart are asked for under names apart. -/
theorem Listed.names {s : State} (hs : Listed s) : NamesApart s := by
  refine ⟨fun b _ q memory => whole_iff memory q b.host, fun b hb b' hb' q q' memory memory' hfit hfit' => ?_⟩
  rw [(whole_iff memory q b.host).mpr hfit, (whole_iff memory' q' b'.host).mpr hfit', quad_name_inj,
    reverse_inj]
  refine and_congr_right fun _ => ⟨fun hsame => ?_, fun h => by rw [h, strcasecmp_iff]⟩
  by_contra hne
  have hapart : Apart (b.host.map Char.toLower) (b'.host.map Char.toLower) :=
    (List.pairwise_map.mp hs.apart).forall hb hb' hne
  have hlong := hapart (strcasecmp_iff.mp hsame)
  rw [List.length_map] at hlong
  unfold Fits at hfit
  omega

/-- **Names tell addresses and lists apart**: in every state of every run, what is asked
about an IPv4 address is the reversed address in front of the list's name, if it fits,
and no other address in that list and no address in another list has the same name. -/
theorem names_apart (core : Core) (es : List Event) : Run.Always (step core) NamesApart init es :=
  ⟨init_listed.names, Run.along_of_reach (fun _ _ _ hr hs => (step_listed
    (Run.reach_inv init_listed (fun _ _ _ h hs => step_listed h hs) hr) hs).names) es⟩

end Dnsbl
end AthemeContrib
