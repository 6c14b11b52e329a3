/-
# ms_fsend: a memo that cannot be refused

`FSEND` checks the sender's rate, the memo and the target, and then counts the
attempt and delivers the memo, if the inbox has room. What the command reads
and writes of the sender's account is the rate, and of the target's its memos;
an account that sends to itself has both, and they do not overlap. The
library's bound on a counter that limits a rate applies (`fsend_rate`).

What is delivered is the memo behind `[FORCE] `, in a buffer that has room for
a memo alone: the last of a long one is cut off (`fsend_delivers_iff`).

The environment's answers are part of a command: the account that
`myuser_find_ext` finds, with its inbox as it is then, and whether the target
is online. Log lines are left out.

Key definitions: `Config`, `Myuser`, `Cmd`, `fsendChecks`, `fsendDeliver`,
`msCmdFsend`, `attempts`, `Accepted`, `Delivers`.
Key theorems: `fsendChecks_cases`, `msCmdFsend_moves`, `fsend_run`, `fsend_rate`,
`fsend_delivers_iff`.
-/
import AthemeContrib.Command
import AthemeContrib.Lib.RateLimit

namespace AthemeContrib
namespace Fsend

open CStr RateLimit

/-- Limits the core is built with, and `me.mdlimit`. -/
structure Config where
  memoMaxNum : ℕ
  memoMaxTime : ℕ
  memolen : ℕ
  nicklen : ℕ
  mdlimit : ℕ
deriving DecidableEq, Repr

/-- A memo; `status` 0 is that of a new one. -/
structure Mymemo where
  sent : ℤ
  status : ℕ
  sender : CStr
  text : CStr
deriving DecidableEq, Repr

/-- An account that a memo can be sent to. -/
structure Myuser where
  name : CStr
  emailmemos : Bool
  email : CStr
  memos : List Mymemo
  memoctNew : ℕ
deriving DecidableEq, Repr

/-- A service: its nick, and how users are told to write to it. -/
structure Service where
  nick : CStr
  disp : CStr
deriving DecidableEq, Repr

/-- A `FSEND` command. The source's account is `smu` and its nick, if it is on
IRC, `su`; `tmu` is the account of the target, and `online` says that the user
of that name is logged in to it. -/
structure Cmd where
  smu : Option CStr
  su : Option CStr
  privFlood : Bool
  service : Service
  memoserv : Option Service
  now : ℤ
  parv : List CStr
  tmu : Option Myuser
  online : Bool
deriving DecidableEq, Repr

/-- A memo that has passed the checks. -/
structure Delivery where
  smu : CStr
  target : CStr
  m : CStr
  tmu : Myuser
deriving DecidableEq, Repr

/-- The checks of `ms_cmd_fsend`: the sender's rate afterwards, and what is
replied or what is to be delivered. -/
def fsendChecks (cfg : Config) (c : Cmd) (rate : Counter) : Counter × Except (List Output) Delivery :=
  match c.parv[0]?, c.parv[1]? with
  | some target, some m =>
    match c.smu with
    | none => (rate, .error [.fail .noprivs STR_NOT_LOGGED_IN])
    | some smu =>
      let rate := rate.reset cfg.memoMaxTime c.now
      if cfg.memoMaxNum < rate.num ∧ ¬ c.privFlood then
        (rate, .error [.fail .toomany
          "You have used this command too many times; please wait a while and try again."])
      else if cfg.memolen < m.length then
        (rate, .error [.fail .badparams
          s!"Please make sure your memo is not greater than {cfg.memolen} characters"])
      else if m.head? = some '\x01' then
        (rate, .error [.fail .badparams "Your memo contains invalid characters."])
      else if target.head? ≠ some '#' ∧ target.head? ≠ some '!' then
        match c.tmu with
        | none => (rate, .error [.fail .nosuch_target (STR_IS_NOT_REGISTERED target)])
        | some tmu => (rate, .ok ⟨smu, target, m, tmu⟩)
      else if target.head? = some '#' then
        (rate, .error [.fail .nosuch_target "Channel memos may not be forced."])
      else (rate, .error [.fail .nosuch_target "Group memos may not be forced."])
  | _, _ =>
    (rate, .error [.fail .needmoreparams (STR_INSUFFICIENT_PARAMS "FSEND"),
      .fail .needmoreparams "Syntax: FSEND <user> <memo>"])

/-- The memo that is made: the text is cut to the size of its buffer. -/
def memoOf (cfg : Config) (now : ℤ) (d : Delivery) : Mymemo where
  sent := now
  status := 0
  sender := strlcpy d.smu (cfg.nicklen + 1)
  text := strlcat (strlcpy "[FORCE] ".toList (cfg.memolen + 1)) d.m (cfg.memolen + 1)

/-- The two notices to the target, whose inbox now has `count` memos. -/
def newMemo (core : Core) (c : Cmd) (d : Delivery) (count : ℕ) : List Output :=
  let memoserv := c.memoserv.getD c.service
  let smu := String.ofList d.smu
  let disp := String.ofList memoserv.disp
  let sender := match c.su with
    | none => smu
    | some nick =>
      if core.irccasecmp nick d.smu then smu else s!"{smu} (nickname: {String.ofList nick})"
  [myuserNotice d.tmu.name s!"You have a new memo from {sender} ({count}).",
    myuserNotice d.tmu.name s!"To read it, type \x02/msg {disp} READ {count}\x02"]

/-- The delivery: the target's account afterwards, and what is sent. -/
def fsendDeliver (cfg : Config) (core : Core) (c : Cmd) (d : Delivery) : Myuser × List Sent :=
  let target := String.ofList d.target
  if cfg.mdlimit ≤ d.tmu.memos.length then
    (d.tmu, [.irc (.fail .toomany s!"The inbox for \x02{target}\x02 is full")])
  else
    let memo := memoOf cfg c.now d
    let tmu := { d.tmu with memos := d.tmu.memos ++ [memo], memoctNew := d.tmu.memoctNew + 1 }
    let email := if tmu.emailmemos then [.email .memo tmu.name tmu.email memo.text] else []
    let online := if c.online then
        [.success (s!"{target} is currently online, and you may talk directly, " ++
          "by sending a private message.")]
      else []
    let replies := online ++ newMemo core c d tmu.memos.length ++
      [.success s!"The memo has been successfully sent to \x02{target}\x02."]
    (tmu, email ++ replies.map .irc)

/-- `ms_cmd_fsend`: the sender's rate and the target's account afterwards, and
what is sent. -/
def msCmdFsend (cfg : Config) (core : Core) (c : Cmd) (rate : Counter) :
    Counter × Option Myuser × List Sent :=
  match fsendChecks cfg c rate with
  | (rate, .error out) => (rate, c.tmu, out.map .irc)
  | (rate, .ok d) =>
    let (tmu, out) := fsendDeliver cfg core c d
    (⟨rate.num + 1, c.now⟩, some tmu, out)

/-! ### The rate -/

/-- The command gets as far as looking into the inbox. -/
def attempted (cfg : Config) (c : Cmd) (rate : Counter) : Bool :=
  match (fsendChecks cfg c rate).2 with
  | .ok _ => true
  | .error _ => false

/-- The commands of one account, one after another: when they are given, and
whether they get as far as the inbox. -/
def attempts (cfg : Config) (core : Core) : Counter → List Cmd → List (ℤ × Bool)
  | _, [] => []
  | rate, c :: cs => (c.now, attempted cfg c rate) :: attempts cfg core (msCmdFsend cfg core c rate).1 cs

/-- What the checks make of the rate: it is read, or it is not; it is low enough
where they are passed. -/
theorem fsendChecks_cases (cfg : Config) (c : Cmd) (rate : Counter) :
    let rate' := (fsendChecks cfg c rate).1
    (rate' = rate ∨ rate' = rate.reset cfg.memoMaxTime c.now) ∧
      (attempted cfg c rate = true → rate' = rate.reset cfg.memoMaxTime c.now ∧
        (c.privFlood = false → rate'.num ≤ cfg.memoMaxNum)) := by
  unfold attempted fsendChecks
  split
  · split
    · exact ⟨Or.inl rfl, fun h => Bool.noConfusion h⟩
    · simp only
      split
      · exact ⟨Or.inr rfl, fun h => Bool.noConfusion h⟩
      · rename_i hlow
        split
        · exact ⟨Or.inr rfl, fun h => Bool.noConfusion h⟩
        · split
          · exact ⟨Or.inr rfl, fun h => Bool.noConfusion h⟩
          · split
            · split
              · exact ⟨Or.inr rfl, fun h => Bool.noConfusion h⟩
              · refine ⟨Or.inr rfl, fun _ => ⟨rfl, fun hpriv => ?_⟩⟩
                simp only [hpriv, Bool.false_eq_true, not_false_eq_true, and_true] at hlow
                exact Nat.le_of_not_lt hlow
            · split <;> exact ⟨Or.inr rfl, fun h => Bool.noConfusion h⟩
  · exact ⟨Or.inl rfl, fun h => Bool.noConfusion h⟩

/-- A command moves the rate as an event of the library does. -/
theorem msCmdFsend_moves (cfg : Config) (core : Core) {c : Cmd} (hpriv : c.privFlood = false)
    (rate : Counter) :
    Moves cfg.memoMaxNum cfg.memoMaxTime c.now (attempted cfg c rate) rate
      (msCmdFsend cfg core c rate).1 := by
  obtain ⟨hrate, hpassed⟩ := fsendChecks_cases cfg c rate
  unfold msCmdFsend
  unfold attempted at hpassed ⊢
  rcases hchecks : fsendChecks cfg c rate with ⟨rate', out | d⟩
  · simp only [hchecks] at hrate ⊢
    rcases hrate with rfl | rfl
    · exact .skip _
    · exact .read _
  · simp only [hchecks] at hpassed ⊢
    obtain ⟨rfl, hlow⟩ := hpassed trivial
    exact .attempt (hlow hpriv)

theorem fsend_run (cfg : Config) (core : Core) : ∀ {cs : List Cmd} (rate : Counter),
    (∀ c ∈ cs, c.privFlood = false) → Run cfg.memoMaxNum cfg.memoMaxTime rate (attempts cfg core rate cs)
  | [], rate, _ => .nil rate
  | c :: cs, rate, hpriv =>
    .cons (msCmdFsend_moves cfg core (hpriv c (by simp)) rate)
      (fsend_run cfg core _ fun d hd => hpriv d (List.mem_cons_of_mem c hd))

theorem attempts_fst (cfg : Config) (core : Core) : ∀ (cs : List Cmd) (rate : Counter),
    (attempts cfg core rate cs).map Prod.fst = cs.map (·.now)
  | [], _ => rfl
  | c :: cs, rate => by rw [attempts, List.map_cons, attempts_fst cfg core cs, List.map_cons]

/-- **Without `PRIV_FLOOD` no more than `MEMO_MAX_NUM + 1` commands get as far as
the inbox** in any `MEMO_MAX_TIME` seconds, from wherever these are counted. -/
theorem fsend_rate (cfg : Config) (core : Core) (rate : Counter) {cs : List Cmd}
    (hpriv : ∀ c ∈ cs, c.privFlood = false) (hord : cs.Pairwise fun c d => c.now ≤ d.now) (a : ℤ) :
    (attempts cfg core rate cs).countP (fun e => e.2 && decide (a ≤ e.1 ∧ e.1 ≤ a + cfg.memoMaxTime)) ≤
      cfg.memoMaxNum + 1 := by
  have hordered : Ordered (attempts cfg core rate cs) := by
    unfold Ordered
    rw [← List.pairwise_map (f := Prod.fst), attempts_fst, List.pairwise_map]
    exact hord
  exact attempts_le (fsend_run cfg core rate hpriv) hordered

/-- Two memos to an account, from one that is not on IRC. -/
def twoMemos : List Cmd :=
  let bob : Myuser := ⟨"bob".toList, false, "bob@example.org".toList, [], 0⟩
  [⟨some "alice".toList, none, false, ⟨"MemoServ".toList, "MemoServ".toList⟩, none, 1700000000,
      ["bob".toList, "hello".toList], some bob, false⟩,
    ⟨some "alice".toList, none, false, ⟨"MemoServ".toList, "MemoServ".toList⟩, none, 1700000180,
      ["bob".toList, "are you there?".toList], some bob, false⟩]

theorem fsend_rate_two : (attempts ⟨5, 180, 300, 31, 30⟩ ⟨Char.toLower, fun _ => ""⟩ ⟨0, 0⟩ twoMemos).countP
    (fun e => e.2 && decide (1700000000 ≤ e.1 ∧ e.1 ≤ 1700000000 + ((180 : ℕ) : ℤ))) ≤ 5 + 1 :=
  fsend_rate ⟨5, 180, 300, 31, 30⟩ ⟨Char.toLower, fun _ => ""⟩ ⟨0, 0⟩ (by simp [twoMemos])
    (by simp [twoMemos]) 1700000000

/-! ### The memo -/

/-- The command is accepted: the memo `m` goes to the account `tmu`, whose inbox
has room. -/
structure Accepted (cfg : Config) (c : Cmd) (rate : Counter) (m : CStr) (tmu : Myuser) : Prop where
  target : ∃ target, c.parv[0]? = some target ∧ target.head? ≠ some '#' ∧ target.head? ≠ some '!'
  memo : c.parv[1]? = some m
  login : c.smu ≠ none
  rate : (rate.reset cfg.memoMaxTime c.now).num ≤ cfg.memoMaxNum ∨ c.privFlood = true
  short : m.length ≤ cfg.memolen
  clean : m.head? ≠ some '\x01'
  account : c.tmu = some tmu
  room : tmu.memos.length < cfg.mdlimit

/-- What `FSEND` is meant to make of the account of the target: an accepted
memo is appended whole, and nothing happens to it otherwise. -/
structure Delivers (cfg : Config) (c : Cmd) (rate : Counter) (tmu' : Option Myuser) : Prop where
  accepted : ∀ m tmu, Accepted cfg c rate m tmu → ∃ memo : Mymemo, memo.text = "[FORCE] ".toList ++ m ∧
    tmu' = some { tmu with memos := tmu.memos ++ [memo], memoctNew := tmu.memoctNew + 1 }
  refused : (∀ m tmu, ¬ Accepted cfg c rate m tmu) → tmu' = c.tmu
  bounded : ∀ tmu t, c.tmu = some tmu → tmu' = some t → tmu.memos.length ≤ cfg.mdlimit →
    t.memos.length ≤ cfg.mdlimit

/-- The checks are passed exactly by what is accepted, up to the room in the
inbox. -/
theorem fsendChecks_ok {cfg : Config} {c : Cmd} {rate rate' : Counter} {d : Delivery}
    (h : fsendChecks cfg c rate = (rate', .ok d)) :
    c.tmu = some d.tmu ∧ (Accepted cfg c rate d.m d.tmu ↔ d.tmu.memos.length < cfg.mdlimit) := by
  unfold fsendChecks at h
  split at h
  · rename_i target m htarget hm
    split at h
    · simp at h
    · rename_i smu hsmu
      simp only at h
      split at h
      · simp at h
      rename_i hrate
      split at h
      · simp at h
      rename_i hlen
      split at h
      · simp at h
      rename_i hclean
      split at h
      · rename_i hhash
        split at h
        · simp at h
        · rename_i tmu htmu
          simp only [Prod.mk.injEq, Except.ok.injEq] at h
          obtain ⟨-, rfl⟩ := h
          refine ⟨htmu, fun ha => ha.room, fun hroom => ?_⟩
          refine ⟨⟨target, htarget, hhash⟩, hm, ?_, ?_, Nat.le_of_not_lt hlen, hclean, htmu, hroom⟩
          · rw [hsmu]
            exact Option.some_ne_none smu
          · rw [not_and_or, Nat.not_lt, Bool.not_eq_true, Bool.not_eq_false] at hrate
            exact hrate
      · split at h <;> simp at h
  · simp at h

/-- What is accepted passes the checks, and is delivered. -/
theorem msCmdFsend_accepted {cfg : Config} {c : Cmd} {rate : Counter} {m : CStr} {tmu : Myuser}
    (h : Accepted cfg c rate m tmu) (core : Core) : ∃ memo : Mymemo,
      memo.text = strlcat (strlcpy "[FORCE] ".toList (cfg.memolen + 1)) m (cfg.memolen + 1) ∧
      (msCmdFsend cfg core c rate).2.1 =
        some { tmu with memos := tmu.memos ++ [memo], memoctNew := tmu.memoctNew + 1 } := by
  obtain ⟨target, htarget, hhash⟩ := h.target
  obtain ⟨smu, hsmu⟩ := Option.ne_none_iff_exists'.mp h.login
  have hrate : ¬ (cfg.memoMaxNum < (rate.reset cfg.memoMaxTime c.now).num ∧ ¬ c.privFlood) := by
    rw [not_and_or, Nat.not_lt, not_not]
    exact h.rate
  have hchecks : fsendChecks cfg c rate = (rate.reset cfg.memoMaxTime c.now, .ok ⟨smu, target, m, tmu⟩) := by
    unfold fsendChecks
    simp only [htarget, h.memo, hsmu, h.account]
    rw [if_neg hrate, if_neg (by have := h.short; omega), if_neg h.clean, if_pos hhash]
  have hroom : ¬ cfg.mdlimit ≤ tmu.memos.length := by
    have := h.room
    omega
  refine ⟨memoOf cfg c.now ⟨smu, target, m, tmu⟩, rfl, ?_⟩
  simp only [msCmdFsend, hchecks, fsendDeliver, hroom, if_false]

/-- What is not accepted leaves the inbox alone. -/
theorem msCmdFsend_refused {cfg : Config} {c : Cmd} {rate : Counter}
    (h : ∀ m tmu, ¬ Accepted cfg c rate m tmu) (core : Core) : (msCmdFsend cfg core c rate).2.1 = c.tmu := by
  unfold msCmdFsend
  rcases hchecks : fsendChecks cfg c rate with ⟨rate', out | d⟩
  · rfl
  · obtain ⟨htmu, hiff⟩ := fsendChecks_ok hchecks
    have hfull : cfg.mdlimit ≤ d.tmu.memos.length :=
      Nat.le_of_not_lt fun hroom => h d.m d.tmu (hiff.mpr hroom)
    simp only [fsendDeliver, hfull, if_true]
    exact htmu.symm

theorem length_memos_le {cfg : Config} {c : Cmd} {rate : Counter} (core : Core) {tmu t : Myuser}
    (htmu : c.tmu = some tmu) (ht : (msCmdFsend cfg core c rate).2.1 = some t)
    (hle : tmu.memos.length ≤ cfg.mdlimit) : t.memos.length ≤ cfg.mdlimit := by
  by_cases h : ∃ m tmu, Accepted cfg c rate m tmu
  · obtain ⟨m, tmu', ha⟩ := h
    obtain ⟨memo, -, hout⟩ := msCmdFsend_accepted ha core
    have hroom := ha.room
    rw [ht, Option.some.injEq] at hout
    rw [hout, List.length_append, List.length_singleton]
    omega
  · have hnone : ∀ m tmu, ¬ Accepted cfg c rate m tmu := fun m tmu ha => h ⟨m, tmu, ha⟩
    rw [msCmdFsend_refused hnone core, htmu, Option.some.injEq] at ht
    rw [← ht]
    exact hle

/-- **An accepted memo arrives whole exactly if it is eight characters shorter
than the limit it is checked against.** -/
theorem fsend_delivers_iff (cfg : Config) (core : Core) (c : Cmd) (rate : Counter) :
    Delivers cfg c rate (msCmdFsend cfg core c rate).2.1 ↔
      ∀ m tmu, Accepted cfg c rate m tmu → m.length + 8 ≤ cfg.memolen := by
  have hfits : ∀ m : CStr, strlcat (strlcpy "[FORCE] ".toList (cfg.memolen + 1)) m (cfg.memolen + 1) =
      "[FORCE] ".toList ++ m ↔ m.length + 8 ≤ cfg.memolen := by
    intro m
    have hprefix : "[FORCE] ".toList.length = 8 := by decide
    rw [strlcat_strlcpy_eq_iff (Nat.succ_pos cfg.memolen), hprefix]
    omega
  constructor
  · intro h m tmu ha
    obtain ⟨memo, htext, hout⟩ := msCmdFsend_accepted ha core
    obtain ⟨memo', htext', hout'⟩ := h.accepted m tmu ha
    rw [hout, Option.some.injEq, Myuser.mk.injEq] at hout'
    have hmemo : memo = memo' := List.singleton_inj.mp (List.append_cancel_left hout'.2.2.2.1)
    rw [← hfits, ← htext, hmemo, htext']
  · intro h
    refine ⟨fun m tmu ha => ?_, fun hno => msCmdFsend_refused hno core, fun tmu t => length_memos_le core⟩
    obtain ⟨memo, htext, hout⟩ := msCmdFsend_accepted ha core
    exact ⟨memo, htext.trans ((hfits m).mpr (h m tmu ha)), hout⟩

/-- A memo of the longest length that is allowed loses its last eight characters. -/
theorem fsend_cuts_memo : ¬ ∀ (cfg : Config) (core : Core) (c : Cmd) (rate : Counter),
    Delivers cfg c rate (msCmdFsend cfg core c rate).2.1 := by
  intro h
  let tmu : Myuser := ⟨"bob".toList, false, "bob@example.org".toList, [], 0⟩
  let memo : CStr := List.replicate 300 'a'
  let c : Cmd := ⟨some "alice".toList, none, false, ⟨"MemoServ".toList, "MemoServ".toList⟩, none, 1700000000,
    ["bob".toList, memo], some tmu, false⟩
  have hlength : memo.length = 300 := List.length_replicate
  have hclean : memo.head? ≠ some '\x01' := by
    rw [List.head?_replicate]
    decide
  have hacc : Accepted ⟨5, 180, 300, 31, 30⟩ c ⟨0, 0⟩ memo tmu :=
    ⟨⟨"bob".toList, rfl, by decide, by decide⟩, rfl, Option.some_ne_none _, Or.inl (by decide),
      Nat.le_of_eq hlength, hclean, rfl, by decide⟩
  obtain ⟨m', htext, hout⟩ := msCmdFsend_accepted hacc ⟨Char.toLower, fun _ => ""⟩
  obtain ⟨m, htext', hout'⟩ :=
    (h ⟨5, 180, 300, 31, 30⟩ ⟨Char.toLower, fun _ => ""⟩ c ⟨0, 0⟩).accepted memo tmu hacc
  rw [hout, Option.some.injEq, Myuser.mk.injEq] at hout'
  have hmemo : m' = m := List.singleton_inj.mp (List.append_cancel_left hout'.2.2.2.1)
  rw [hmemo, htext', eq_comm, strlcat_strlcpy_eq_iff (by decide)] at htext
  have hprefix : "[FORCE] ".toList.length = 8 := by decide
  rw [hlength, hprefix] at htext
  exact absurd htext (by decide)

end Fsend
end AthemeContrib
