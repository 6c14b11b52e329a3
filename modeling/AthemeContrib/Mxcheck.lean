/-
# ns_mxcheck_async: the slots of the running checks

A registration forks a child that looks up the e-mail's domain. The parent
keeps what the child was started for in `procdata[proccount++]` and hands the
child's callback a pointer to it; the callback counts `proccount` down. So
the array is used as a stack, while the children end in any order: after a
child has ended below the top, the next registration takes the slot of one
still running. Each child keeps its slot exactly along the runs where no
registration starts while a child is out that was itself started with as many
children running (`slots_owned_iff`; the two would get one slot), and where
names fit their buffers.

`Child.running` is ghost state: the number of children that were running when
the child was started. The account database is the core's; an exit brings it
along as `myuser_find` answers then. The lookups themselves are the child's
and only show in its status.

Key definitions: `checkRegistration`, `childprocCb`, `step`, `SlotsOwned`,
`RemovesOwn`, `Uncontended`.
Key theorems: `start_owned_iff`, `removesOwn_of_slotsOwned`, `slots_owned_iff`.
-/
import AthemeContrib.Command
import AthemeContrib.Lib.Run
import Mathlib.Data.List.Nodup
import Mathlib.Logic.Function.Basic

namespace AthemeContrib
namespace Mxcheck

open CStr

def MAX_CHILDPROCS : ℕ := 10

/-- What a check is about, as it is kept for the callback. -/
structure Procdata where
  name : CStr
  email : CStr
deriving DecidableEq, Repr

/-- An account as `myuser_find` returns it. -/
structure Myuser where
  name : CStr
  email : CStr
deriving DecidableEq, Repr

/-- A child that has not been reaped: its pid, the slot its callback will be
given, the account and e-mail it was started for, and how many children were
running then. -/
structure Child where
  pid : ℕ
  data : Fin MAX_CHILDPROCS
  account : CStr
  email : CStr
  running : ℕ
deriving DecidableEq, Repr

/-- A child's status: `WIFEXITED` with a code, or killed by a signal. -/
inductive Status
  | exited (code : ℕ)
  | signaled
deriving DecidableEq, Repr

/-- The argument of the `user_can_register` hook. -/
structure Hdata where
  account : CStr
  email : CStr
  approved : Bool
deriving DecidableEq, Repr

/-- The module's variables, the children not reaped yet, and what was sent. -/
structure State where
  proccount : ℕ
  procdata : Fin MAX_CHILDPROCS → Procdata
  outstanding : List Child
  out : List Output

def init : State := ⟨0, fun _ => ⟨[], []⟩, [], []⟩

def tooMany : Output := .fail .toomany "Sorry, too many registrations in progress. Try again later."

/-- `check_registration` in the parent; `fork` is the child's pid, or `none`
where `fork()` fails. The buffers of a slot hold `nicklen` and `emaillen`
characters. -/
def checkRegistration (nicklen emaillen : ℕ) (hdata : Hdata) (fork : Option ℕ) (s : State) : State × Hdata :=
  if hdata.approved then (s, hdata)
  else if h : s.proccount < MAX_CHILDPROCS then
    match fork with
    | none => ({ s with out := s.out ++ [tooMany] }, { hdata with approved := true })
    | some pid =>
      let pd : Fin MAX_CHILDPROCS := ⟨s.proccount, h⟩
      ({ s with
          proccount := s.proccount + 1
          procdata := Function.update s.procdata pd
            ⟨strlcpy hdata.account (nicklen + 1), strlcpy hdata.email (emaillen + 1)⟩
          outstanding := s.outstanding ++ [⟨pid, pd, hdata.account, hdata.email, s.outstanding.length⟩] },
        hdata)
  else ({ s with out := s.out ++ [tooMany] }, { hdata with approved := true })

/-- The text of the notice about a domain without mail. -/
def noMailText (domain : CStr) : String :=
  s!"Sorry, \x02{String.ofList domain}\x02 does not exist, I can't send mail there. Please check and try again."

/-- What `childproc_cb` makes of the slot `pd`: the account it drops, with
the domain its owner is told about. -/
def dropped (pd : Procdata) (status : Status) (myuserFind : CStr → Option Myuser) : Option (Myuser × CStr) :=
  match status with
  | .signaled => none
  | .exited code =>
    (myuserFind pd.name).bind fun mu =>
      if pd.email ≠ mu.email then none
      else (strchr pd.email '@').bind fun at_ => if code = 1 then some (mu, at_.drop 1) else none

/-- `childproc_cb`, called with the slot `data`. -/
def childprocCb (data : Fin MAX_CHILDPROCS) (status : Status) (myuserFind : CStr → Option Myuser)
    (s : State) : State × Option Myuser :=
  if 0 < s.proccount then
    let s := { s with proccount := s.proccount - 1 }
    match dropped (s.procdata data) status myuserFind with
    | none => (s, none)
    | some (mu, domain) =>
      ({ s with out := s.out ++ [.notice (String.ofList mu.name) (noMailText domain)] }, some mu)
  else (s, none)

/-- A registration is checked, or a child exits. A forked child gets a pid no
other child has. -/
inductive Event
  | register (hdata : Hdata) (fork : Option ℕ)
  | exit (pid : ℕ) (status : Status) (myuserFind : CStr → Option Myuser)

/-- The child an exit is about; its callback runs once, as it is reaped. -/
def reaped (s : State) (pid : ℕ) : Option Child := s.outstanding.find? (·.pid = pid)

def step (nicklen emaillen : ℕ) (s : State) : Event → Option State
  | .register hdata fork =>
    if ∃ c ∈ s.outstanding, some c.pid = fork then none
    else some (checkRegistration nicklen emaillen hdata fork s).1
  | .exit pid status myuserFind =>
    (reaped s pid).map fun c =>
      let s := (childprocCb c.data status myuserFind s).1
      { s with outstanding := s.outstanding.erase c }

/-! ### The laws of the slots -/

/-- Every running child's slot holds what it was started for, and no two have
one slot. -/
def SlotsOwned (s : State) : Prop :=
  (∀ c ∈ s.outstanding, s.procdata c.data = ⟨c.account, c.email⟩) ∧
  (s.outstanding.map Child.data).Nodup

instance (s : State) : Decidable (SlotsOwned s) :=
  inferInstanceAs (Decidable ((∀ c ∈ s.outstanding, s.procdata c.data = ⟨c.account, c.email⟩) ∧ _))

/-- An account is dropped only by a child that exited with status 1 and was
started for that account and its e-mail. -/
def RemovesOwn (s : State) : Event → Prop
  | .register _ _ => True
  | .exit pid status myuserFind => ∀ c mu, reaped s pid = some c →
      (childprocCb c.data status myuserFind s).2 = some mu →
      status = .exited 1 ∧ myuserFind c.account = some mu ∧ mu.email = c.email

/-- A check that starts fits its slot, and no child is out that was started
with as many children running. -/
def Uncontended (nicklen emaillen : ℕ) (s : State) : Event → Prop
  | .register hdata (some _) =>
    hdata.approved = false → s.outstanding.length < MAX_CHILDPROCS →
      hdata.account.length ≤ nicklen ∧ hdata.email.length ≤ emaillen ∧
        ∀ c ∈ s.outstanding, c.running ≠ s.outstanding.length
  | _ => True

/-- `proccount` counts the running children, and a child's slot is the count
at its start. -/
def Counted (s : State) : Prop :=
  s.proccount = s.outstanding.length ∧ ∀ c ∈ s.outstanding, (c.data : ℕ) = c.running

variable {nicklen emaillen : ℕ}

/-- What a registration does: nothing to the children, or it starts one in
the slot `proccount`. -/
theorem register_cases (hdata : Hdata) (fork : Option ℕ) (s : State) :
    (∃ out, (checkRegistration nicklen emaillen hdata fork s).1 = { s with out := out } ∧
      (hdata.approved = true ∨ MAX_CHILDPROCS ≤ s.proccount ∨ fork = none)) ∨
    ∃ (pid : ℕ) (h : s.proccount < MAX_CHILDPROCS), hdata.approved = false ∧ fork = some pid ∧
      (checkRegistration nicklen emaillen hdata fork s).1 = { s with
        proccount := s.proccount + 1
        procdata := Function.update s.procdata ⟨s.proccount, h⟩
          ⟨strlcpy hdata.account (nicklen + 1), strlcpy hdata.email (emaillen + 1)⟩
        outstanding := s.outstanding ++
          [⟨pid, ⟨s.proccount, h⟩, hdata.account, hdata.email, s.outstanding.length⟩] } := by
  unfold checkRegistration
  by_cases ha : hdata.approved = true
  · rw [if_pos ha]
    exact Or.inl ⟨s.out, rfl, Or.inl ha⟩
  · rw [if_neg ha]
    by_cases h : s.proccount < MAX_CHILDPROCS
    · rw [dif_pos h]
      cases fork with
      | none => exact Or.inl ⟨_, rfl, Or.inr (Or.inr rfl)⟩
      | some pid => exact Or.inr ⟨pid, h, by simpa using ha, rfl, rfl⟩
    · rw [dif_neg h]
      exact Or.inl ⟨_, rfl, Or.inr (Or.inl (by omega))⟩

/-- What a callback does to the slots: it counts down. -/
theorem childprocCb_fst (data : Fin MAX_CHILDPROCS) (status : Status) (find : CStr → Option Myuser)
    (s : State) :
    ∃ out, (childprocCb data status find s).1 = { s with proccount := s.proccount - 1, out := out } := by
  unfold childprocCb
  by_cases h0 : 0 < s.proccount
  · rw [if_pos h0]
    simp only
    split
    · exact ⟨_, rfl⟩
    · exact ⟨_, rfl⟩
  · rw [if_neg h0]
    have hz : s.proccount - 1 = s.proccount := by omega
    exact ⟨s.out, by rw [hz]⟩

/-- The account a callback drops is the one its slot names. -/
theorem dropped_eq_some {pd : Procdata} {status : Status} {find : CStr → Option Myuser} {mu : Myuser}
    {domain : CStr} (h : dropped pd status find = some (mu, domain)) :
    status = .exited 1 ∧ find pd.name = some mu ∧ mu.email = pd.email := by
  cases status with
  | signaled => cases h
  | exited code =>
    simp only [dropped, Option.bind_eq_some_iff] at h
    obtain ⟨mu', hmu, h⟩ := h
    by_cases he : pd.email ≠ mu'.email
    · rw [if_pos he] at h
      cases h
    · rw [if_neg he, Option.bind_eq_some_iff] at h
      obtain ⟨at_, -, h⟩ := h
      by_cases hc : code = 1
      · rw [if_pos hc] at h
        cases h
        exact ⟨by rw [hc], hmu, (not_not.mp he).symm⟩
      · rw [if_neg hc] at h
        cases h

theorem childprocCb_snd {data : Fin MAX_CHILDPROCS} {status : Status} {find : CStr → Option Myuser}
    {s : State} {mu : Myuser} (h : (childprocCb data status find s).2 = some mu) :
    ∃ domain, dropped (s.procdata data) status find = some (mu, domain) := by
  unfold childprocCb at h
  by_cases h0 : 0 < s.proccount
  · rw [if_pos h0] at h
    simp only at h
    split at h
    · cases h
    · rename_i mu' domain hd
      cases h
      exact ⟨domain, hd⟩
  · rw [if_neg h0] at h
    cases h

theorem mem_of_reaped {s : State} {pid : ℕ} {c : Child} (h : reaped s pid = some c) : c ∈ s.outstanding :=
  List.mem_of_find?_eq_some h

/-- A child that owns its slot drops only what it was started for. -/
theorem removesOwn_of_slotsOwned {s : State} (h : SlotsOwned s) (e : Event) : RemovesOwn s e := by
  cases e with
  | register hdata fork => trivial
  | exit pid status find =>
    intro c mu hc hmu
    obtain ⟨domain, hd⟩ := childprocCb_snd hmu
    rw [h.1 c (mem_of_reaped hc)] at hd
    exact dropped_eq_some hd

/-- A child starts in an owned slot exactly if its strings fit and no running
child was started with as many children running. -/
theorem start_owned_iff {s : State} (hI : Counted s) (hP : SlotsOwned s) (h : s.proccount < MAX_CHILDPROCS)
    (pid : ℕ) (account email : CStr) :
    SlotsOwned { s with
      proccount := s.proccount + 1
      procdata := Function.update s.procdata ⟨s.proccount, h⟩
        ⟨strlcpy account (nicklen + 1), strlcpy email (emaillen + 1)⟩
      outstanding := s.outstanding ++ [⟨pid, ⟨s.proccount, h⟩, account, email, s.outstanding.length⟩] } ↔
    account.length ≤ nicklen ∧ email.length ≤ emaillen ∧
      ∀ c ∈ s.outstanding, c.running ≠ s.outstanding.length := by
  have hslot : ∀ c ∈ s.outstanding, c.data = ⟨s.proccount, h⟩ ↔ c.running = s.outstanding.length := by
    intro c hc
    rw [Fin.ext_iff, hI.2 c hc]
    simp only [hI.1]
  constructor
  · intro ⟨hown, hnd⟩
    have hnew := hown _ (List.mem_append_right _ (List.mem_singleton_self _))
    simp only [Function.update_self, Procdata.mk.injEq] at hnew
    refine ⟨?_, ?_, fun c hc hrun => ?_⟩
    · by_contra hlen
      exact strlcpy_ne (by omega) (by omega) hnew.1
    · by_contra hlen
      exact strlcpy_ne (by omega) (by omega) hnew.2
    · simp only [List.map_append, List.map_singleton] at hnd
      apply (List.nodup_append.mp hnd).2.2 _ (List.mem_map_of_mem hc) _ (List.mem_singleton_self _)
      exact (hslot c hc).mpr hrun
  · intro ⟨hn, he, hfree⟩
    have hne : ∀ c ∈ s.outstanding, c.data ≠ ⟨s.proccount, h⟩ :=
      fun c hc heq => hfree c hc ((hslot c hc).mp heq)
    constructor
    · intro c hc
      rcases List.mem_append.mp hc with hc | hc
      · simp only [Function.update_of_ne (hne c hc)]
        exact hP.1 c hc
      · rw [List.mem_singleton.mp hc]
        simp only [Function.update_self]
        rw [strlcpy_eq_self (by omega), strlcpy_eq_self (by omega)]
    · simp only [List.map_append, List.map_singleton]
      rw [List.nodup_append]
      refine ⟨hP.2, List.nodup_singleton _, ?_⟩
      rintro d hd d' hd' rfl
      obtain ⟨c, hc, hcd⟩ := List.mem_map.mp hd
      exact hne c hc (hcd.trans (List.mem_singleton.mp hd'))

/-- A reaped child leaves the others as they are. -/
theorem exit_eq {s s' : State} {pid : ℕ} {status : Status} {find : CStr → Option Myuser}
    (h : step nicklen emaillen s (.exit pid status find) = some s') :
    ∃ c ∈ s.outstanding, s'.proccount = s.proccount - 1 ∧ s'.procdata = s.procdata ∧
      s'.outstanding = s.outstanding.erase c := by
  simp only [step, Option.map_eq_some_iff] at h
  obtain ⟨c, hc, rfl⟩ := h
  obtain ⟨out, he⟩ := childprocCb_fst c.data status find s
  exact ⟨c, mem_of_reaped hc, by rw [he], by rw [he], by rw [he]⟩

theorem register_eq {s s' : State} {hdata : Hdata} {fork : Option ℕ}
    (h : step nicklen emaillen s (.register hdata fork) = some s') :
    s' = (checkRegistration nicklen emaillen hdata fork s).1 := by
  simp only [step] at h
  split at h
  · cases h
  · exact (Option.some.inj h).symm

theorem step_counted {s s' : State} {e : Event} (hI : Counted s) (h : step nicklen emaillen s e = some s') :
    Counted s' := by
  cases e with
  | register hdata fork =>
    rw [register_eq h]
    rcases register_cases hdata fork s with ⟨out, he, -⟩ | ⟨pid, hlt, -, -, he⟩
    · rw [he]
      exact hI
    · rw [he]
      refine ⟨by simp [hI.1], fun c hc => ?_⟩
      rcases List.mem_append.mp hc with hc | hc
      · exact hI.2 c hc
      · rw [List.mem_singleton.mp hc]
        exact hI.1
  | exit pid status find =>
    obtain ⟨c, hc, h1, -, h3⟩ := exit_eq h
    refine ⟨by rw [h1, h3, List.length_erase_of_mem hc, hI.1], fun d hd => ?_⟩
    rw [h3] at hd
    exact hI.2 d (List.mem_of_mem_erase hd)

theorem step_owned_iff {s s' : State} {e : Event} (hI : Counted s) (hP : SlotsOwned s)
    (h : step nicklen emaillen s e = some s') : Uncontended nicklen emaillen s e ↔ SlotsOwned s' := by
  cases e with
  | register hdata fork =>
    rw [register_eq h]
    rcases register_cases hdata fork s with ⟨out, he, hno⟩ | ⟨pid, hlt, ha, hf, he⟩
    · rw [he]
      refine iff_of_true ?_ hP
      cases fork with
      | none => trivial
      | some pid =>
        intro ha hlt
        rcases hno with hno | hno | hno
        · rw [ha] at hno
          cases hno
        · have := hI.1
          omega
        · cases hno
    · rw [he, hf, start_owned_iff hI hP hlt pid hdata.account hdata.email]
      have hlt' : s.outstanding.length < MAX_CHILDPROCS := hI.1 ▸ hlt
      simp only [Uncontended, ha, hlt', forall_const]
  | exit pid status find =>
    obtain ⟨c, hc, -, h2, h3⟩ := exit_eq h
    refine iff_of_true trivial ⟨fun d hd => ?_, ?_⟩
    · rw [h3] at hd
      rw [h2]
      exact hP.1 d (List.mem_of_mem_erase hd)
    · rw [h3]
      exact hP.2.sublist (List.erase_sublist.map _)

/-- **Slots are owned along the uncontended runs, and only there**, and along
these a child drops no account but its own. -/
theorem slots_owned_iff (nicklen emaillen : ℕ) (es : List Event) :
    (Run.Always (step nicklen emaillen) SlotsOwned init es ∧
      Run.Along (step nicklen emaillen) (fun s e _ => RemovesOwn s e) init es) ↔
    Run.Along (step nicklen emaillen) (fun s e _ => Uncontended nicklen emaillen s e) init es := by
  have hiff : Run.Always (step nicklen emaillen) SlotsOwned init es ↔
      Run.Along (step nicklen emaillen) (fun s e _ => Uncontended nicklen emaillen s e) init es := by
    refine Run.always_iff_along Counted ?_ ?_ ?_ ?_ es
    · exact ⟨rfl, fun c hc => by simp [init] at hc⟩
    · exact ⟨fun c hc => by simp [init] at hc, by simp [init]⟩
    · exact fun s e s' hI hP h => step_owned_iff hI hP h
    · exact fun s e s' hI _ h => step_counted hI h
  rw [← hiff]
  refine and_iff_left_of_imp fun hown => ?_
  exact (hown.along_pre).mono fun s e s' h => removesOwn_of_slotsOwned h e

/-- Two checks start, the first ends, a third starts: it is given the slot of
the second, whose failure then drops the third's account. -/
theorem slot_taken :
    let db : CStr → Option Myuser := fun n =>
      if n = "carol".toList then some ⟨n, "c@c.org".toList⟩ else none
    ∃ s, Run.exec (step 31 120) init
      [.register ⟨"alice".toList, "a@a.org".toList, false⟩ (some 1),
       .register ⟨"bob".toList, "b@nowhere".toList, false⟩ (some 2),
       .exit 1 (.exited 0) db,
       .register ⟨"carol".toList, "c@c.org".toList, false⟩ (some 3)] = some s ∧
    ¬ SlotsOwned s ∧
    ∃ c, reaped s 2 = some c ∧ c.account = "bob".toList ∧
      (childprocCb c.data (.exited 1) db s).2 = some ⟨"carol".toList, "c@c.org".toList⟩ := by
  refine ⟨_, rfl, by decide, _, rfl, rfl, by decide⟩

end Mxcheck
end AthemeContrib
