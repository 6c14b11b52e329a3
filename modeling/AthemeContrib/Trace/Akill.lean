/-
# os_trace: the bans of TRACE AKILL

`AKILL` bans `*@host` for each user that meets the criteria, unless the user is
an internal client or an operator, the host is one the services themselves may
be on, or a ban of the host is found. The ban it has just set is found too, so
of the users of one host the first gets the ban and the reply, and the others
none (`banned`). Nothing else of the network changes, so the criteria mean to
the last user what they meant to the first, and `AKILL` bans no user that
`PRINT` would not have shown.

What the core finds among the bans is its own; that it finds a ban again is
`Finds`.

Key definitions: `protectedHost`, `akillable`, `banOf`, `banned`, `Finds`,
`AkillsExactly`.
Key theorems: `runUsers_looks`, `akill_foldl`, `banned_covers`, `trace_akill`.
-/
import AthemeContrib.Trace.Kill

namespace AthemeContrib
namespace Trace

open CStr

variable {sv : Services} {s : State} {duration : ℤ} {reason : CStr}

/-- The host is 127.0.0.1 or the services' own. -/
def protectedHost (sv : Services) (host : CStr) : Bool :=
  let same (name : CStr) : Bool := sv.matchMask host name || sv.matchIps host name
  same "127.0.0.1".toList || sv.vhost.any same

/-- The user may be killed, and its host is not protected. -/
def akillable (sv : Services) (u : User) : Bool := killable u && !protectedHost sv u.host

/-- The ban that `AKILL` sets for a user. -/
def banOf (sv : Services) (duration : ℤ) (reason : CStr) (u : User) : Kline :=
  ⟨['*'], u.host, reason, duration, sv.storageOperName⟩

/-- Of the users the ones that get a ban, with these bans set before. -/
def banned (sv : Services) (duration : ℤ) (reason : CStr) : List Kline → List User → List User
  | _, [] => []
  | klines, u :: us =>
    if akillable sv u && !sv.klineFind klines ['*'] u.host then
      u :: banned sv duration reason (klines ++ [banOf sv duration reason u]) us
    else banned sv duration reason klines us

/-- Adding a ban loses none, and a ban that `AKILL` sets for a host is found
for it. -/
structure Finds (sv : Services) (duration : ℤ) (reason : CStr) : Prop where
  keeps : ∀ klines k host, sv.klineFind klines ['*'] host = true →
    sv.klineFind (klines ++ [k]) ['*'] host = true
  self : ∀ klines u, sv.klineFind (klines ++ [banOf sv duration reason u]) ['*'] u.host = true

/-! ### One user -/

/-- The checks of `trace_akill_exec`, and what it does. -/
theorem traceAkillExec_eq (u : User) (s : State) : traceAkillExec sv duration reason u s =
    if akillable sv u && !sv.klineFind s.klines ['*'] u.host then
      ({ s with matched := true, klines := s.klines ++ [banOf sv duration reason u] } : State).send
        [.success (akilledText u)]
    else s := by
  have hchecks : ∀ (internal ircop soper localhost vhost found : Bool) (s' : State),
      (if internal then s else if ircop then s else if soper then s else if localhost then s
        else if vhost then s else if found then s else s') =
      if !internal && !ircop && !soper && !(localhost || vhost) && !found then s' else s := by
    intro internal ircop soper localhost vhost found s'
    cases internal <;> cases ircop <;> cases soper <;> cases localhost <;> cases vhost <;> cases found <;> rfl
  exact hchecks _ _ _ _ _ _ _

theorem looks_akill (s : State) (u : User) : Looks s (touch sv (.akill duration reason) s u) := by
  rw [touch, Action.exec, traceAkillExec_eq]
  split <;> exact ⟨rfl, rfl, rfl, rfl⟩

/-- An action that leaves alone what the criteria are about is executed on
exactly the users that meet them, in the order of the list. -/
theorem runUsers_looks {act : Action} (hlook : ∀ s u, Looks s (touch sv act s u)) : ∀ {us : List User}
    {s : State}, s.crashed = false → (∀ q ∈ s.crit, Live s q) →
    runUsers sv act us s = (us.filter (meets sv s s.crit)).foldl (touch sv act) s
  | [], _, _, _ => rfl
  | u :: us, s, hc, hlive => by
    rw [runUsers_round _ us hc hlive]
    cases hu : meets sv s s.crit u with
    | false =>
      rw [if_neg (by simp), List.filter_cons_of_neg (by simp [hu])]
      exact runUsers_looks hlook hc hlive
    | true =>
      have hl := hlook s u
      have hlive' : ∀ q ∈ (touch sv act s u).crit, Live (touch sv act s u) q := by
        intro q hq ch he
        rw [hl.crit] at hq
        rw [State.channel?, hl.channels]
        exact hlive q hq ch he
      have ih : runUsers sv act us (touch sv act s u) = _ :=
        runUsers_looks hlook (hl.crashed.trans hc) hlive'
      rw [if_pos rfl, List.filter_cons_of_pos hu, List.foldl_cons, ← hl.meets]
      exact ih

/-! ### The users that get a ban -/

/-- **The loop over the users**: each is touched, and those of `banned` get a
ban and are replied. -/
theorem akill_foldl : ∀ {us : List User} {s : State},
    us.foldl (touch sv (.akill duration reason)) s = { s with
      touched := s.touched ++ us.map (·.id)
      klines := s.klines ++ (banned sv duration reason s.klines us).map (banOf sv duration reason)
      out := s.out ++ (banned sv duration reason s.klines us).map fun u => .success (akilledText u)
      matched := s.matched || !(banned sv duration reason s.klines us).isEmpty }
  | [], s => by simp [banned]
  | u :: us, s => by
    rw [List.foldl_cons, akill_foldl, touch, Action.exec, traceAkillExec_eq, banned]
    simp only
    cases h : akillable sv u && !sv.klineFind s.klines ['*'] u.host with
    | true => simp [State.send]
    | false => simp

theorem banned_sublist : ∀ {us : List User} {klines : List Kline},
    (banned sv duration reason klines us).Sublist (us.filter (akillable sv))
  | [], _ => List.Sublist.refl []
  | u :: us, klines => by
    unfold banned
    cases ha : akillable sv u with
    | false =>
      rw [if_neg (by simp), List.filter_cons_of_neg (by simp [ha])]
      exact banned_sublist
    | true =>
      rw [List.filter_cons_of_pos ha]
      split
      · exact banned_sublist.cons_cons u
      · exact banned_sublist.cons u

section Found

variable (hf : Finds sv duration reason)
include hf

theorem found_stays {host : CStr} : ∀ {us : List User} {klines : List Kline},
    sv.klineFind klines ['*'] host = true →
    sv.klineFind (klines ++ us.map (banOf sv duration reason)) ['*'] host = true
  | [], klines, h => by simpa using h
  | u :: us, klines, h => by
    have hnext : sv.klineFind (klines ++ [banOf sv duration reason u]) ['*'] host = true := hf.keeps _ _ _ h
    have ih : sv.klineFind ((klines ++ [banOf sv duration reason u]) ++ us.map (banOf sv duration reason)) ['*']
        host = true := found_stays hnext
    simpa using ih

theorem banned_new : ∀ {us : List User} {klines : List Kline},
    ∀ u ∈ banned sv duration reason klines us, sv.klineFind klines ['*'] u.host = false
  | [], _ => fun u hu => by cases hu
  | v :: us, klines => by
    intro u hu
    unfold banned at hu
    split at hu
    · rename_i hv
      rcases List.mem_cons.mp hu with rfl | hu
      · rw [Bool.and_eq_true, Bool.not_eq_true'] at hv
        exact hv.2
      · by_contra hfound
        have hnext := hf.keeps klines (banOf sv duration reason v) u.host (by simpa using hfound)
        rw [banned_new u hu] at hnext
        cases hnext
    · exact banned_new u hu

theorem banned_nodup : ∀ {us : List User} {klines : List Kline},
    ((banned sv duration reason klines us).map (·.host)).Nodup
  | [], _ => List.nodup_nil
  | v :: us, klines => by
    unfold banned
    split
    · rw [List.map_cons, List.nodup_cons]
      refine ⟨fun hmem => ?_, banned_nodup⟩
      obtain ⟨u, hu, hhost⟩ := List.mem_map.mp hmem
      have hnew := banned_new hf u hu
      rw [hhost, hf.self klines v] at hnew
      cases hnew
    · exact banned_nodup

/-- **After the loop every user it could ban is banned**, by a ban of its own
or by one that was found. -/
theorem banned_covers : ∀ {us : List User} {klines : List Kline}, ∀ u ∈ us, akillable sv u = true →
    sv.klineFind (klines ++ (banned sv duration reason klines us).map (banOf sv duration reason)) ['*'] u.host =
      true
  | [], _ => fun u hu => by cases hu
  | v :: us, klines => by
    intro u hu ha
    unfold banned
    split
    · rename_i hv
      rw [List.map_cons, List.append_cons]
      rcases List.mem_cons.mp hu with rfl | hu
      · exact found_stays hf (hf.self klines u)
      · exact banned_covers u hu ha
    · rename_i hv
      rcases List.mem_cons.mp hu with rfl | hu
      · have hfound : sv.klineFind klines ['*'] u.host = true := by simpa [ha] using hv
        exact found_stays hf hfound
      · exact banned_covers u hu ha

end Found

/-! ### The command -/

/-- The bans that were added are of the users `us`, in their order: users that
met the criteria when the command was given and may be banned, of pairwise
different hosts for none of which a ban was found before. Each is replied, and
if there is none, that too. After the command every user that met the criteria
and may be banned is banned; the network is as it was. -/
structure AkillsExactly (sv : Services) (s : State) (crit : List Query) (duration : ℤ) (reason : CStr)
    (us : List User) (run : State) : Prop where
  safe : run.crashed = false
  network : run.users = s.users ∧ run.channels = s.channels ∧ run.kills = s.kills
  cleaned : run.cleaned = crit
  touched : run.touched = s.touched ++ (hits sv s crit).map (·.id)
  klines : run.klines = s.klines ++ us.map (banOf sv duration reason)
  replies : run.out = s.out ++ us.map (fun u => .success (akilledText u)) ++
    (if us = [] then [.success "No matches."] else [])
  among : us.Sublist ((hits sv s crit).filter (akillable sv))
  hosts : (us.map (·.host)).Nodup
  new : ∀ u ∈ us, sv.klineFind s.klines ['*'] u.host = false
  covers : ∀ u ∈ hits sv s crit, akillable sv u = true → sv.klineFind run.klines ['*'] u.host = true

/-- **TRACE AKILL bans every host it should, once, and no other.** -/
theorem trace_akill {sv : Services} {duration : ℤ} {reason : CStr} (hf : Finds sv duration reason)
    (users : List User) (channels : List Channel) (klines : List Kline) {args saved : CStr} {crit : List Query}
    (hparsed : compile sv (.begin users channels klines) (args.length + 1) (some args) saved [] = .all crit) :
    AkillsExactly sv (.begin users channels klines) crit duration reason
      (banned sv duration reason klines (hits sv (.begin users channels klines) crit))
      (finish (.akill duration reason)
        (osCmdTraceRun sv (.akill duration reason) (some args) saved (.begin users channels klines))) := by
  generalize hs : State.begin users channels klines = s at hparsed ⊢
  have hlive : ∀ q ∈ crit, Live s q := by
    have h : ∀ q ∈ (compile sv s (args.length + 1) (some args) saved []).crit, Live s q :=
      compile_live fun q hq => by cases hq
    rwa [hparsed] at h
  have hc : s.crashed = false := hs ▸ rfl
  have hm : s.matched = false := hs ▸ rfl
  have hk : s.klines = klines := hs ▸ rfl
  have hrun : (osCmdTraceRun sv (.akill duration reason) (some args) saved s) =
      ((hits sv s crit).foldl (touch sv (.akill duration reason)) { s with crit := crit }, true) := by
    have hloop : runUsers sv (.akill duration reason) s.users { s with crit := crit } = _ :=
      runUsers_looks looks_akill hc hlive
    rw [meets_crit] at hloop
    simp only [osCmdTraceRun, hparsed, runCompiled, hloop, hits]
  have hclean : s.cleaned = [] := hs ▸ rfl
  rw [hrun, akill_foldl, finish_eq, if_neg (by simp [hc])]
  simp only [hk, hm, hclean, List.nil_append, Bool.false_or]
  have hnew : ∀ u ∈ banned sv duration reason klines (hits sv s crit), _ := banned_new hf
  have hcovers : ∀ u ∈ hits sv s crit, _ → sv.klineFind (klines ++
      (banned sv duration reason klines (hits sv s crit)).map (banOf sv duration reason)) ['*'] u.host = true :=
    banned_covers hf
  have hamong : (banned sv duration reason klines (hits sv s crit)).Sublist _ := banned_sublist
  have hhosts : ((banned sv duration reason klines (hits sv s crit)).map (·.host)).Nodup := banned_nodup hf
  generalize banned sv duration reason klines (hits sv s crit) = us at *
  cases us with
  | nil =>
    simp only [Action.cleanup, noMatches]
    exact ⟨hc, ⟨rfl, rfl, rfl⟩, rfl, rfl, by simp [State.send, hk], by simp [State.send], hamong, hhosts,
      by simp, by simpa [State.send] using hcovers⟩
  | cons u us =>
    simp only [Action.cleanup, noMatches]
    exact ⟨hc, ⟨rfl, rfl, rfl⟩, rfl, rfl, by simp [hk], by simp, hamong, hhosts,
      by simpa [hk] using hnew, by simpa using hcovers⟩

/-- A core that finds the bans of a host. -/
def onlyBans : Services :=
  { onlyOperserv with klineFind := fun klines user host => klines.any fun k => k.user = user && k.host = host }

theorem onlyBans_finds : Finds onlyBans 0 "spam".toList where
  keeps := by
    intro klines k host h
    simp only [onlyBans] at h ⊢
    rw [List.any_append, h, Bool.true_or]
  self := fun klines u => by simp [onlyBans, banOf]

/-- Of two users of one host the first gets the ban. -/
theorem trace_akill_twins : compile onlyBans (.begin [stranger 1, stranger 2] [] []) 10
      (some "NUMCHAN 0".toList) [] [] = .all [.numchan 0 .eq] ∧
    AkillsExactly onlyBans (.begin [stranger 1, stranger 2] [] []) [.numchan 0 .eq] 0 "spam".toList
      (banned onlyBans 0 "spam".toList []
        (hits onlyBans (.begin [stranger 1, stranger 2] [] []) [.numchan 0 .eq]))
      (finish (.akill 0 "spam".toList)
        (osCmdTraceRun onlyBans (.akill 0 "spam".toList) (some "NUMCHAN 0".toList) []
          (.begin [stranger 1, stranger 2] [] []))) :=
  ⟨by decide, trace_akill onlyBans_finds _ _ _ (by decide)⟩

end Trace
end AthemeContrib
