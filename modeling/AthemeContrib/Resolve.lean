/-
# os_resolve: a request for each of two lookups

`RESOLVE` takes two requests off its heap and two references on the source of
the command, and asks the resolver for the A and the AAAA records of the name.
The callback of a lookup answers the source, drops a reference and frees the
request, but a failed lookup calls it with a null pointer, and the guard at its
top returns before any of that: the request and the reference are never given
back. With that counted, the books balance over every order of the callbacks
(`Inv`), and what is taken is released unless a lookup fails
(`released_iff`).

The references counted are those that this module takes. A request is given
out under a handle of its own, and what the callback reads behind a pointer
that is not live is a misuse.

Key definitions: `Sockaddr`, `osCmdResolveCb`, `osCmdResolveFunc`, `State`,
`step`, `Released`, `Inv`.
Key theorems: `step_inv`, `released_iff`.
-/
import AthemeContrib.Command
import AthemeContrib.Lib.Heap
import AthemeContrib.Lib.Run
import Mathlib.Logic.Function.Basic

namespace AthemeContrib
namespace Resolve

/-- The address of a reply, with its family. -/
inductive Sockaddr
  | sockaddrIn (sinAddr : BitVec 32)
  | sockaddrIn6 (sin6Addr : BitVec 128)
  | other (saFamily : ℤ)
deriving DecidableEq, Repr

/-- `inet_ntop`: the text of an address, or what `strerror(errno)` says. -/
structure Inet where
  ntop4 : BitVec 32 → Except String String
  ntop6 : BitVec 128 → Except String String

/-- `struct resolve_request`; its query points back at it. -/
structure ResolveRequest where
  si : ℕ
deriving DecidableEq, Repr

inductive DnsType
  | a
  | aaaa
deriving DecidableEq, Repr

/-- A query the resolver has, which it answers by a call of `os_cmd_resolve_cb`
with the request `ptr`. -/
structure DnsQuery where
  ptr : ℕ
  name : CStr
  type : DnsType
deriving DecidableEq, Repr

/-- A command whose lookups were started: its source and its two requests. -/
structure Started where
  si : ℕ
  req4 : ℕ
  req6 : ℕ
deriving DecidableEq, Repr

/-- `refs si` is the number of references held on `si`; `lookups` are the queries
still to be answered, `sent` the replies to each source. The commands started,
and for which source and request each reference was dropped, are noted. -/
structure State where
  requestHeap : Heap ResolveRequest
  refs : ℕ → ℕ
  lookups : List DnsQuery
  sent : List (ℕ × Output)
  commands : List Started
  dropped : List (ℕ × ℕ)

def init : State := ⟨.init, fun _ => 0, [], [], [], []⟩

/-- `atheme_object_ref(si)` -/
def athemeObjectRef (refs : ℕ → ℕ) (si : ℕ) : ℕ → ℕ := Function.update refs si (refs si + 1)

/-- `atheme_object_unref(si)` -/
def athemeObjectUnref (refs : ℕ → ℕ) (si : ℕ) : ℕ → ℕ := Function.update refs si (refs si - 1)

/-- `command_fail` and `command_success_nodata` -/
def State.reply (s : State) (si : ℕ) (o : Output) : State := { s with sent := s.sent ++ [(si, o)] }

/-- What is said of an address. -/
def result (inet : Inet) : Sockaddr → Output
  | .sockaddrIn addr => ntopResult (inet.ntop4 addr)
  | .sockaddrIn6 addr => ntopResult (inet.ntop6 addr)
  | .other family => .fail .internalerror s!"Error: Unrecognised address family {family}"
where
  ntopResult : Except String String → Output
    | .ok buf => .success s!"Result: {buf}"
    | .error e => .fail .internalerror s!"Error: inet_ntop(3) failed: {e}"

/-- `os_cmd_resolve_cb` -/
def osCmdResolveCb (inet : Inet) (reply : Option Sockaddr) (vptr : Option ℕ) (s : State) : State :=
  match reply, vptr with
  | some sa, some req =>
    match s.requestHeap.find req with
    | none => { s with requestHeap := s.requestHeap.misuse req }
    | some r =>
      let s := s.reply r.si (result inet sa)
      { s with
        refs := athemeObjectUnref s.refs r.si
        dropped := s.dropped ++ [(r.si, req)]
        requestHeap := s.requestHeap.free req }
  | _, _ => s -- the guards

/-- `mowgli_heap_alloc`, which fails unless `ok`; the request is filled in before
anything reads it. -/
def mowgliHeapAlloc (ok : Bool) (r : ResolveRequest) (heap : Heap ResolveRequest) :
    Option ℕ × Heap ResolveRequest :=
  if ok then (some heap.next, heap.alloc r) else (none, heap)

/-- `if (req) mowgli_heap_free(request_heap, req)` -/
def mowgliHeapFree (heap : Heap ResolveRequest) : Option ℕ → Heap ResolveRequest
  | some req => heap.free req
  | none => heap

/-- `os_cmd_resolve_func` -/
def osCmdResolveFunc (si : ℕ) (parv : List CStr) (alloc4 alloc6 : Bool) (s : State) : State :=
  match parv[0]? with
  | none => s.reply si (.fail .needmoreparams (STR_INSUFFICIENT_PARAMS "RESOLVE"))
  | some name =>
    let (req4, heap) := mowgliHeapAlloc alloc4 ⟨si⟩ s.requestHeap
    let (req6, heap) := mowgliHeapAlloc alloc6 ⟨si⟩ heap
    match req4, req6 with
    | some req4, some req6 =>
      { s with
        requestHeap := heap
        refs := athemeObjectRef (athemeObjectRef s.refs si) si
        lookups := s.lookups ++ [⟨req4, name, .a⟩, ⟨req6, name, .aaaa⟩]
        commands := s.commands ++ [⟨si, req4, req6⟩] }
    | req4, req6 =>
      let s := s.reply si (.fail .internalerror "mowgli_heap_alloc: memory allocation failure")
      { s with requestHeap := mowgliHeapFree (mowgliHeapFree heap req4) req6 }

/-- A `RESOLVE`, with the outcomes of its two allocations, or the callback of the
lookup for `req`, with a null pointer where the lookup failed. -/
inductive Event
  | resolve (si : ℕ) (parv : List CStr) (alloc4 alloc6 : Bool)
  | reply (req : ℕ) (reply : Option Sockaddr)
deriving DecidableEq, Repr

/-- A lookup is answered once. -/
def step (inet : Inet) (s : State) : Event → Option State
  | .resolve si parv alloc4 alloc6 => some (osCmdResolveFunc si parv alloc4 alloc6 s)
  | .reply req reply =>
    if req ∈ s.lookups.map DnsQuery.ptr then
      let s := { s with lookups := s.lookups.filter (·.ptr ≠ req) }
      some (osCmdResolveCb inet reply (some req) s)
    else none

variable {inet : Inet} {es : List Event} {s s' : State} {req : ℕ}

/-- The callback of the lookup has run. -/
def Answered (es : List Event) (req : ℕ) : Prop := ∃ reply, Event.reply req reply ∈ es

/-- It was called with a null pointer. -/
def Failed (es : List Event) (req : ℕ) : Prop := Event.reply req none ∈ es

/-- Both callbacks of a command have run. -/
def Finished (es : List Event) (c : Started) : Prop := Answered es c.req4 ∧ Answered es c.req6

/-- What a command took is given back: the requests are freed and the references
dropped, each once. -/
def Started.Settled (s : State) (c : Started) : Prop :=
  ∀ req ∈ [c.req4, c.req6], s.requestHeap.freed.count req = 1 ∧ s.dropped.count (c.si, req) = 1

/-- What is taken is released: whatever a finished command took, and with no
lookup to wait for, everything. No request is used once it is freed. -/
structure Released (es : List Event) (s : State) : Prop where
  settled : ∀ c ∈ s.commands, Finished es c → c.Settled s
  valid : s.requestHeap.misused = []
  empty : s.lookups = [] → s.requestHeap.live = [] ∧ ∀ si, s.refs si = 0

/-! ### What a step does -/

/-- Nothing is kept from the step: what was taken is given back at once. -/
structure Idle (s s' : State) : Prop where
  live : s'.requestHeap.live = s.requestHeap.live
  misused : s'.requestHeap.misused = s.requestHeap.misused
  next : s.requestHeap.next ≤ s'.requestHeap.next
  freed : ∀ req < s.requestHeap.next, s'.requestHeap.freed.count req = s.requestHeap.freed.count req
  refs : s'.refs = s.refs
  lookups : s'.lookups = s.lookups
  commands : s'.commands = s.commands
  dropped : s'.dropped = s.dropped

/-- A command that is refused keeps nothing. -/
theorem idle_refused {si : ℕ} {parv : List CStr} {alloc4 alloc6 : Bool} (s : State)
    (h : parv[0]? = none ∨ ¬ (alloc4 = true ∧ alloc6 = true)) :
    Idle s (osCmdResolveFunc si parv alloc4 alloc6 s) := by
  have hsame : ∀ o, Idle s (s.reply si o) := fun o =>
    ⟨rfl, rfl, Nat.le_refl _, fun _ _ => rfl, rfl, rfl, rfl, rfl⟩
  -- of two allocations that do not both succeed one is taken back
  have hback : ∀ o heap, heap = (s.requestHeap.alloc ⟨si⟩).free s.requestHeap.next →
      Idle s { s.reply si o with requestHeap := heap } := by
    intro o heap hheap
    obtain ⟨hlive, hfreed, hnext, hmisused⟩ := s.requestHeap.free_alloc (⟨si⟩ : ResolveRequest)
    rw [← hheap] at hlive hfreed hnext hmisused
    refine ⟨hlive, hmisused, Nat.le_of_lt (by rw [hnext]; omega), fun req hreq => ?_, rfl, rfl, rfl, rfl⟩
    have hne : s.requestHeap.next ≠ req := by omega
    show heap.freed.count req = _
    rw [hfreed, List.count_append, List.count_singleton, if_neg (by simpa using hne), Nat.add_zero]
  unfold osCmdResolveFunc
  rcases hparv : parv[0]? with _ | name
  · exact hsame _
  · have hno : ¬ (alloc4 = true ∧ alloc6 = true) := h.resolve_left (by rw [hparv]; nofun)
    cases alloc4 with
    | false =>
      cases alloc6 with
      | false => exact hsame _
      | true => exact hback _ _ rfl
    | true =>
      cases alloc6 with
      | false => exact hback _ _ rfl
      | true => exact absurd ⟨rfl, rfl⟩ hno

/-- A command that is not refused starts its two lookups. -/
theorem started_eq {si : ℕ} {parv : List CStr} {name : CStr} (hparv : parv[0]? = some name) (s : State) :
    osCmdResolveFunc si parv true true s =
      { s with
        requestHeap := (s.requestHeap.alloc ⟨si⟩).alloc ⟨si⟩
        refs := athemeObjectRef (athemeObjectRef s.refs si) si
        lookups := s.lookups ++ [⟨s.requestHeap.next, name, .a⟩, ⟨s.requestHeap.next + 1, name, .aaaa⟩]
        commands := s.commands ++ [⟨si, s.requestHeap.next, s.requestHeap.next + 1⟩] } := by
  unfold osCmdResolveFunc
  rw [hparv]
  rfl

/-- The callback at a request that is live. -/
theorem answered_eq {r : ResolveRequest} (hlive : (req, r) ∈ s.requestHeap.live) (sa : Sockaddr) :
    osCmdResolveCb inet (some sa) (some req) s =
      { s with
        sent := s.sent ++ [(r.si, result inet sa)]
        refs := athemeObjectUnref s.refs r.si
        dropped := s.dropped ++ [(r.si, req)]
        requestHeap := s.requestHeap.free req } := by
  have hfind : s.requestHeap.find req = some r := Heap.find_eq_some_iff.mpr hlive
  simp only [osCmdResolveCb, hfind]
  rfl

/-! ### The books -/

/-- The requests of the commands that were started. -/
def State.asked (s : State) : List (ℕ × ResolveRequest) :=
  s.commands.flatMap fun c => [(c.req4, ⟨c.si⟩), (c.req6, ⟨c.si⟩)]

/-- What is on the books after the events `es`. A request is live as long as its
lookup is not answered, and for good if it failed; each live request stands for
a reference, and each that was freed for one that was dropped. -/
structure Inv (es : List Event) (s : State) : Prop where
  asked : ∀ p ∈ s.asked, p.1 < s.requestHeap.next
  answered : ∀ req, Answered es req → req ∈ s.asked.map Prod.fst
  live : ∀ p, p ∈ s.requestHeap.live ↔ p ∈ s.asked ∧ (Answered es p.1 → Failed es p.1)
  lookups : ∀ req, req ∈ s.lookups.map DnsQuery.ptr ↔ req ∈ s.asked.map Prod.fst ∧ ¬ Answered es req
  refs : ∀ si, s.refs si = s.requestHeap.live.countP (·.2.si = si)
  dropped : ∀ si req, s.dropped.count (si, req) =
    if (req, ⟨si⟩) ∈ s.asked then s.requestHeap.freed.count req else 0
  misused : s.requestHeap.misused = []

theorem inv_init : Inv [] init where
  asked := nofun
  answered := nofun
  live := by simp [init, Heap.init, State.asked]
  lookups := by simp [init, State.asked]
  refs := fun _ => rfl
  dropped := fun _ _ => rfl
  misused := rfl

theorem answered_snoc (es : List Event) (e : Event) (req : ℕ) :
    Answered (es ++ [e]) req ↔ Answered es req ∨ ∃ reply, e = .reply req reply := by
  simp only [Answered, List.mem_append, List.mem_singleton, exists_or, eq_comm]

theorem failed_snoc (es : List Event) (e : Event) (req : ℕ) :
    Failed (es ++ [e]) req ↔ Failed es req ∨ e = .reply req none := by
  simp only [Failed, List.mem_append, List.mem_singleton, eq_comm]

/-- A command answers no lookup. -/
theorem answered_resolve (es : List Event) (si : ℕ) (parv : List CStr) (alloc4 alloc6 : Bool) (req : ℕ) :
    Answered (es ++ [.resolve si parv alloc4 alloc6]) req ↔ Answered es req := by
  rw [answered_snoc]
  exact or_iff_left nofun

theorem failed_resolve (es : List Event) (si : ℕ) (parv : List CStr) (alloc4 alloc6 : Bool) (req : ℕ) :
    Failed (es ++ [.resolve si parv alloc4 alloc6]) req ↔ Failed es req := by
  rw [failed_snoc]
  exact or_iff_left nofun

/-- A callback answers its own lookup. -/
theorem answered_reply (es : List Event) (r : ℕ) (reply : Option Sockaddr) (req : ℕ) :
    Answered (es ++ [.reply r reply]) req ↔ Answered es req ∨ req = r := by
  rw [answered_snoc]
  apply or_congr_right
  constructor
  · intro h
    obtain ⟨reply', h⟩ := h
    exact (Event.reply.inj h).1.symm
  · intro h
    exact ⟨reply, by rw [h]⟩

/-- The lookups that are left when one is answered. -/
theorem mem_lookups (s : State) (req r : ℕ) :
    r ∈ (s.lookups.filter (·.ptr ≠ req)).map DnsQuery.ptr ↔ r ∈ s.lookups.map DnsQuery.ptr ∧ r ≠ req := by
  simp only [List.mem_map, List.mem_filter, decide_eq_true_iff]
  constructor
  · intro h
    obtain ⟨q, hq, hptr⟩ := h
    exact ⟨⟨q, hq.1, hptr⟩, hptr ▸ hq.2⟩
  · intro h
    obtain ⟨⟨q, hq, hptr⟩, hne⟩ := h
    exact ⟨q, ⟨hq, hptr ▸ hne⟩, hptr⟩

theorem Failed.answered (h : Failed es req) : Answered es req := ⟨none, h⟩

/-! ### What keeps the books -/

/-- A refused command. -/
theorem inv_idle {si : ℕ} {parv : List CStr} {alloc4 alloc6 : Bool} (hinv : Inv es s) (h : Idle s s') :
    Inv (es ++ [.resolve si parv alloc4 alloc6]) s' := by
  have hasked : s'.asked = s.asked := by
    unfold State.asked
    rw [h.commands]
  constructor
  · intro p hp
    rw [hasked] at hp
    exact Nat.lt_of_lt_of_le (hinv.asked p hp) h.next
  · intro req hreq
    rw [hasked]
    exact hinv.answered req ((answered_resolve ..).mp hreq)
  · intro p
    rw [h.live, hasked, answered_resolve, failed_resolve]
    exact hinv.live p
  · intro req
    rw [h.lookups, hasked, answered_resolve]
    exact hinv.lookups req
  · intro si'
    rw [h.refs, h.live]
    exact hinv.refs si'
  · intro si' req
    rw [h.dropped, hasked, hinv.dropped]
    by_cases hmem : (req, (⟨si'⟩ : ResolveRequest)) ∈ s.asked
    · rw [if_pos hmem, if_pos hmem, h.freed req (hinv.asked _ hmem)]
    · rw [if_neg hmem, if_neg hmem]
  · rw [h.misused]
    exact hinv.misused

/-- The two requests that a command takes, after `n` others. -/
def pair (n si : ℕ) : List (ℕ × ResolveRequest) := [(n, ⟨si⟩), (n + 1, ⟨si⟩)]

theorem of_mem_pair {n si : ℕ} {p : ℕ × ResolveRequest} (hp : p ∈ pair n si) : n ≤ p.1 ∧ p.1 < n + 2 := by
  simp only [pair, List.mem_cons, List.not_mem_nil, or_false] at hp
  rcases hp with rfl | rfl
  · exact ⟨Nat.le_refl n, by show n < n + 2; omega⟩
  · exact ⟨Nat.le_succ n, by show n + 1 < n + 2; omega⟩

theorem countP_pair (n si si' : ℕ) : (pair n si).countP (·.2.si = si') = if si = si' then 2 else 0 := by
  by_cases h : si = si' <;> simp [pair, h]

theorem athemeObjectRef_twice (refs : ℕ → ℕ) (si si' : ℕ) :
    athemeObjectRef (athemeObjectRef refs si) si si' = refs si' + if si = si' then 2 else 0 := by
  unfold athemeObjectRef
  by_cases h : si = si'
  · rw [h, Function.update_self, Function.update_self, if_pos rfl]
  · rw [Function.update_of_ne (Ne.symm h), Function.update_of_ne (Ne.symm h), if_neg h, Nat.add_zero]

/-- A command that starts its lookups. -/
theorem inv_started {si : ℕ} {parv : List CStr} {name : CStr} (hinv : Inv es s)
    (hparv : parv[0]? = some name) :
    Inv (es ++ [.resolve si parv true true]) (osCmdResolveFunc si parv true true s) := by
  let n := s.requestHeap.next
  let t := osCmdResolveFunc si parv true true s
  have ht : t = _ := started_eq hparv s
  have hasked : t.asked = s.asked ++ pair n si := by
    rw [ht]
    simp [State.asked, pair, n]
  have hlive : t.requestHeap.live = s.requestHeap.live ++ pair n si := by
    rw [ht]
    exact List.append_assoc ..
  have hlookups : t.lookups.map DnsQuery.ptr = s.lookups.map DnsQuery.ptr ++ (pair n si).map Prod.fst := by
    rw [ht]
    exact List.map_append
  have hnew : ∀ req, n ≤ req → ¬ Answered es req := by
    intro req hle h
    obtain ⟨p, hp, rfl⟩ := List.mem_map.mp (hinv.answered req h)
    have hlt : p.1 < n := hinv.asked p hp
    omega
  constructor
  · intro p hp
    have hnext : t.requestHeap.next = n + 2 := by rw [ht]; rfl
    rw [hasked] at hp
    rw [hnext]
    rcases List.mem_append.mp hp with hp | hp
    · have hlt : p.1 < n := hinv.asked p hp
      omega
    · exact (of_mem_pair hp).2
  · intro req hreq
    rw [hasked, List.map_append]
    exact List.mem_append_left _ (hinv.answered req ((answered_resolve ..).mp hreq))
  · intro p
    rw [hlive, hasked, answered_resolve, failed_resolve, List.mem_append, List.mem_append, hinv.live p,
      or_and_right]
    apply or_congr_right
    exact (and_iff_left_of_imp fun hp h => absurd h (hnew p.1 (of_mem_pair hp).1)).symm
  · intro req
    rw [hlookups, hasked, answered_resolve, List.map_append, List.mem_append, List.mem_append,
      hinv.lookups req, or_and_right]
    apply or_congr_right
    refine (and_iff_left_of_imp fun hreq => ?_).symm
    obtain ⟨p, hp, rfl⟩ := List.mem_map.mp hreq
    exact hnew p.1 (of_mem_pair hp).1
  · intro si'
    have hrefs : t.refs = athemeObjectRef (athemeObjectRef s.refs si) si := by rw [ht]
    rw [hrefs, hlive, List.countP_append, ← hinv.refs si', countP_pair, athemeObjectRef_twice]
  · intro si' req
    have hdropped : t.dropped = s.dropped := by rw [ht]
    have hfreed : t.requestHeap.freed = s.requestHeap.freed := by rw [ht]; rfl
    rw [hdropped, hfreed, hinv.dropped, hasked]
    by_cases hmem : (req, (⟨si'⟩ : ResolveRequest)) ∈ s.asked
    · rw [if_pos hmem, if_pos (List.mem_append_left _ hmem)]
    · rw [if_neg hmem]
      by_cases hpair : (req, (⟨si'⟩ : ResolveRequest)) ∈ pair n si
      · rw [if_pos (List.mem_append_right _ hpair)]
        exact (Heap.count_freed_next (of_mem_pair hpair).1).symm
      · rw [if_neg fun h => (List.mem_append.mp h).elim hmem hpair]
  · have hmisused : t.requestHeap.misused = s.requestHeap.misused := by rw [ht]; rfl
    exact hmisused.trans hinv.misused

/-- A lookup that failed: its request and reference stay. -/
theorem inv_failed (hinv : Inv es s) (hreq : req ∈ s.lookups.map DnsQuery.ptr) :
    Inv (es ++ [.reply req none]) { s with lookups := s.lookups.filter (·.ptr ≠ req) } := by
  obtain ⟨hasked, hwait⟩ := (hinv.lookups req).mp hreq
  constructor
  · exact hinv.asked
  · intro r hr
    rcases (answered_reply ..).mp hr with hr | rfl
    · exact hinv.answered r hr
    · exact hasked
  · intro p
    rw [answered_reply, failed_snoc]
    show p ∈ s.requestHeap.live ↔ p ∈ s.asked ∧ _
    rw [hinv.live p]
    apply and_congr_right
    intro _
    by_cases hp : p.1 = req
    · rw [hp]
      exact iff_of_true (fun h => absurd h hwait) fun _ => Or.inr rfl
    · have hne : Event.reply req none ≠ .reply p.1 none := fun h => hp (Event.reply.inj h).1.symm
      rw [or_iff_left hp, or_iff_left hne]
  · intro r
    rw [answered_reply]
    show r ∈ (s.lookups.filter (·.ptr ≠ req)).map DnsQuery.ptr ↔ r ∈ s.asked.map Prod.fst ∧ _
    rw [mem_lookups, hinv.lookups, not_or, and_assoc]
  · exact hinv.refs
  · exact hinv.dropped
  · exact hinv.misused

/-- A lookup that is answered with an address: its request is freed and its
reference dropped. -/
theorem inv_answered (hinv : Inv es s) (hreq : req ∈ s.lookups.map DnsQuery.ptr) (sa : Sockaddr) :
    Inv (es ++ [.reply req (some sa)])
      (osCmdResolveCb inet (some sa) (some req) { s with lookups := s.lookups.filter (·.ptr ≠ req) }) := by
  obtain ⟨hasked, hwait⟩ := (hinv.lookups req).mp hreq
  obtain ⟨⟨req, r⟩, hp, rfl⟩ := List.mem_map.mp hasked
  have hlive : (req, r) ∈ s.requestHeap.live := (hinv.live _).mpr ⟨hp, fun h => absurd h hwait⟩
  obtain ⟨hrest, hfreed, hnext, hmisused⟩ := Heap.free_of_live hlive
  have hfailed : ∀ q, Failed (es ++ [.reply req (some sa)]) q ↔ Failed es q := by
    intro q
    rw [failed_snoc]
    exact or_iff_left nofun
  let t := osCmdResolveCb inet (some sa) (some req) { s with lookups := s.lookups.filter (·.ptr ≠ req) }
  have ht : t = _ := answered_eq (s := { s with lookups := s.lookups.filter (·.ptr ≠ req) }) hlive sa
  have hheap : t.requestHeap = s.requestHeap.free req := by rw [ht]
  have hcommands : t.asked = s.asked := by
    unfold State.asked
    rw [ht]
  constructor
  · intro p hp
    rw [hcommands] at hp
    rw [hheap, hnext]
    exact hinv.asked p hp
  · intro q hq
    rw [hcommands]
    rcases (answered_reply ..).mp hq with hq | rfl
    · exact hinv.answered q hq
    · exact hasked
  · intro p
    rw [hheap, hrest, hcommands, answered_reply, hfailed, List.mem_filter, hinv.live p, decide_eq_true_iff,
      and_assoc]
    apply and_congr_right
    intro _
    by_cases hq : p.1 = req
    · rw [hq]
      exact iff_of_false (fun h => h.2 rfl) fun h => hwait (h (Or.inr rfl)).answered
    · rw [or_iff_left hq, and_iff_left hq]
  · intro q
    have hlookups : t.lookups = s.lookups.filter (·.ptr ≠ req) := by rw [ht]
    rw [hlookups, hcommands, answered_reply, mem_lookups, hinv.lookups, not_or, and_assoc]
  · intro si'
    have hrefs : t.refs = athemeObjectUnref s.refs r.si := by rw [ht]
    have hcount := (Heap.perm_free hlive).countP_eq (fun p => decide (p.2.si = si'))
    rw [hrefs, hheap]
    unfold athemeObjectUnref
    by_cases hsi : si' = r.si
    · rw [hsi] at hcount ⊢
      rw [List.countP_cons_of_pos (by simp)] at hcount
      rw [Function.update_self, hinv.refs, hcount, Nat.add_sub_cancel]
    · rw [List.countP_cons_of_neg (by simpa using Ne.symm hsi)] at hcount
      rw [Function.update_of_ne hsi, hinv.refs, hcount]
  · intro si' q
    have hdropped : t.dropped = s.dropped ++ [(r.si, req)] := by rw [ht]
    rw [hdropped, hheap, hfreed, hcommands, List.count_append, List.count_append, hinv.dropped]
    by_cases hq : q = req
    · -- the request has one source
      have hone : (q, (⟨si'⟩ : ResolveRequest)) ∈ s.asked ↔ si' = r.si := by
        constructor
        · intro h
          have hsame : (req, (⟨si'⟩ : ResolveRequest)) ∈ s.requestHeap.live :=
            (hinv.live _).mpr ⟨hq ▸ h, fun h => absurd h hwait⟩
          exact congrArg ResolveRequest.si (Heap.eq_of_live hsame hlive)
        · intro h
          rw [h, hq]
          exact hp
      by_cases hsi : si' = r.si
      · rw [if_pos (hone.mpr hsi), if_pos (hone.mpr hsi), hq, hsi]
        simp
      · rw [if_neg (mt hone.mp hsi), if_neg (mt hone.mp hsi)]
        simp [Ne.symm hsi]
    · have hdrop : [(r.si, req)].count (si', q) = 0 := by simp [Ne.symm hq]
      have hfree : [req].count q = 0 := by simp [Ne.symm hq]
      show _ + [(r.si, req)].count (si', q) = if _ then _ + [req].count q else 0
      rw [hdrop, hfree]
      rfl
  · rw [hheap, hmisused]
    exact hinv.misused

/-- **Every step keeps the books.** -/
theorem step_inv (es : List Event) (s : State) (e : Event) (s' : State) (hinv : Inv es s)
    (h : step inet s e = some s') : Inv (es ++ [e]) s' := by
  cases e with
  | resolve si parv alloc4 alloc6 =>
    cases h
    by_cases hrefused : parv[0]? = none ∨ ¬ (alloc4 = true ∧ alloc6 = true)
    · exact inv_idle hinv (idle_refused s hrefused)
    · obtain ⟨hparv, hboth⟩ := not_or.mp hrefused
      obtain ⟨name, hname⟩ := Option.ne_none_iff_exists'.mp hparv
      obtain ⟨rfl, rfl⟩ := not_not.mp hboth
      exact inv_started hinv hname
  | reply req reply =>
    simp only [step] at h
    split at h
    · rename_i hreq
      cases h
      cases reply with
      | none => exact inv_failed hinv hreq
      | some sa => exact inv_answered hinv hreq sa
    · cases h

/-! ### What is released -/

theorem asked_of_mem {c : Started} (hc : c ∈ s.commands) {r : ℕ} (hr : r ∈ [c.req4, c.req6]) :
    (r, (⟨c.si⟩ : ResolveRequest)) ∈ s.asked := by
  apply List.mem_flatMap.mpr ⟨c, hc, ?_⟩
  simp only [List.mem_cons, List.not_mem_nil, or_false] at hr ⊢
  rcases hr with rfl | rfl <;> simp

/-- A request that was answered was freed, and its reference dropped, once,
unless its lookup failed. -/
theorem settled_iff (hinv : Inv es s) {si : ℕ} (hasked : (req, (⟨si⟩ : ResolveRequest)) ∈ s.asked)
    (hanswered : Answered es req) :
    s.requestHeap.freed.count req = 1 ∧ s.dropped.count (si, req) = 1 ↔ ¬ Failed es req := by
  rw [hinv.dropped, if_pos hasked, and_self]
  constructor
  · intro hcount hfailed
    have hlive : (req, (⟨si⟩ : ResolveRequest)) ∈ s.requestHeap.live :=
      (hinv.live _).mpr ⟨hasked, fun _ => hfailed⟩
    have hzero : s.requestHeap.freed.count req = 0 := Heap.count_freed_live hlive
    omega
  · intro hfailed
    apply Heap.count_freed (hinv.asked _ hasked)
    intro hmem
    obtain ⟨p, hp, rfl⟩ := List.mem_map.mp hmem
    exact hfailed (((hinv.live p).mp hp).2 hanswered)

/-- **What is taken is released exactly if no lookup of a finished command
failed.** -/
theorem released_iff (inet : Inet) (es : List Event) (s : State) (h : Run.exec (step inet) init es = some s) :
    Released es s ↔ ∀ c ∈ s.commands, Finished es c → ¬ Failed es c.req4 ∧ ¬ Failed es c.req6 := by
  have hinv : Inv es s := Run.exec_history inv_init step_inv h
  have hsettled : ∀ c ∈ s.commands, Finished es c →
      (c.Settled s ↔ ¬ Failed es c.req4 ∧ ¬ Failed es c.req6) := by
    intro c hc hfin
    have h4 := settled_iff hinv (asked_of_mem hc (List.mem_cons_self ..)) hfin.1
    have h6 := settled_iff hinv (asked_of_mem hc (List.mem_cons_of_mem _ (List.mem_cons_self ..))) hfin.2
    unfold Started.Settled
    rw [List.forall_mem_cons, List.forall_mem_singleton, h4, h6]
  constructor
  · intro hrel c hc hfin
    exact (hsettled c hc hfin).mp (hrel.settled c hc hfin)
  · intro hok
    refine ⟨fun c hc hfin => (hsettled c hc hfin).mpr (hok c hc hfin), hinv.misused, fun hnone => ?_⟩
    -- nothing is left to answer, so every command is finished
    have hanswered : ∀ p ∈ s.asked, Answered es p.1 := by
      intro p hp
      by_contra hno
      have hwait := (hinv.lookups p.1).mpr ⟨List.mem_map_of_mem hp, hno⟩
      rw [hnone] at hwait
      cases hwait
    have hempty : s.requestHeap.live = [] := by
      apply List.eq_nil_iff_forall_not_mem.mpr
      intro p hp
      obtain ⟨hasked, hfailed⟩ := (hinv.live p).mp hp
      obtain ⟨c, hc, hpc⟩ := List.mem_flatMap.mp hasked
      have hfin : Finished es c := by
        constructor
        · exact hanswered _ (asked_of_mem hc (List.mem_cons_self ..))
        · exact hanswered _ (asked_of_mem hc (List.mem_cons_of_mem _ (List.mem_cons_self ..)))
      obtain ⟨h4, h6⟩ := hok c hc hfin
      have hf : Failed es p.1 := hfailed (hanswered p hasked)
      simp only [List.mem_cons, List.not_mem_nil, or_false] at hpc
      rcases hpc with rfl | rfl
      · exact h4 hf
      · exact h6 hf
    refine ⟨hempty, fun si => ?_⟩
    rw [hinv.refs, hempty]
    rfl

/-- What `inet_ntop` makes of the loopback addresses. -/
def loopback : Inet := ⟨fun _ => .ok "127.0.0.1", fun _ => .ok "::1"⟩

/-- A name that has both records. -/
theorem released_localhost :
    ∃ s, Run.exec (step loopback) init [.resolve 0 ["localhost".toList] true true,
        .reply 1 (some (.sockaddrIn6 1)), .reply 0 (some (.sockaddrIn 0x7f000001))] = some s ∧
      Released [.resolve 0 ["localhost".toList] true true, .reply 1 (some (.sockaddrIn6 1)),
        .reply 0 (some (.sockaddrIn 0x7f000001))] s := by
  refine ⟨_, rfl, (released_iff loopback _ _ rfl).mpr fun c _ _ => ?_⟩
  simp [Failed]

/-- A name that has no AAAA record: a request and a reference are left. -/
theorem leak_without_aaaa :
    ∃ s, Run.exec (step loopback) init [.resolve 0 ["localhost".toList] true true,
        .reply 0 (some (.sockaddrIn 0x7f000001)), .reply 1 none] = some s ∧
      ¬ Released [.resolve 0 ["localhost".toList] true true, .reply 0 (some (.sockaddrIn 0x7f000001)),
        .reply 1 none] s ∧ s.lookups = [] ∧ s.refs 0 = 1 ∧ s.requestHeap.live = [(1, ⟨0⟩)] := by
  refine ⟨_, rfl, fun h => ?_, rfl, rfl, rfl⟩
  have hleft : (1 : ℕ) = 0 := (h.empty rfl).2 0
  cases hleft

end Resolve
end AthemeContrib
