/-
# Who can register an account

Seven modules have a say in a registration, each by a hook on `user_can_register`:
`ns_waitreg`, `ns_guestnoreg`, `ns_goodmail`, `ns_mxcheck`, `ns_mxcheck_async`,
`os_defcon` and `sasl_blacklist`. The hooks are called in the order the modules
were loaded in, and the registration goes on if `approved` is still zero after
the last.

Four of them count up `approved` whoever has refused before; the other three look
at it first, and do nothing if the registration is refused already. So the order
does not matter for the verdict, but it does for what the user is told (of a
restricted address nothing at all), and for the child that `ns_mxcheck_async`
starts: one is started for a registration that a module called later refuses
(`registration_outcome`). Only where that hook is called last is every running
child one for a registration that went on (`children_registered`).

`State.registered` and `State.replies` are ghost state: the registrations that
went on, and what was said about all of them.

Key definitions: `Hdata`, `State`, `hook`, `answer`, `step`, `Refuses`, `Outcome`.
Key theorems: `vetoes`, `registration_outcome`, `refused_in_silence_iff`,
`children_registered`.
-/
import AthemeContrib.Defcon
import AthemeContrib.Lib.Veto
import AthemeContrib.Mxcheck
import AthemeContrib.NsGoodmail
import AthemeContrib.SaslBlacklist

namespace AthemeContrib
namespace Registration

open CStr Veto

/-- The modules with a hook on `user_can_register`. -/
inductive Module
  | nsWaitreg
  | nsGuestnoreg
  | nsGoodmail
  | nsMxcheck
  | nsMxcheckAsync
  | osDefcon
  | saslBlacklist
deriving DecidableEq, Repr

/-- The domain of an address: what `strtok` finds behind the first `@` of it, in a
buffer of 1024. -/
def mailDomain (email : CStr) : Option CStr :=
  (strtok none ['@'] (strtok (some (strlcpy email 1024)) ['@'] []).2).1

/-- `hook_user_register_check_t`, but for `approved`; `ts` is when the user of the
source connected. The core has looked at the address: it has a domain. -/
structure Hdata where
  si : SaslBlacklist.Sourceinfo
  ts : ℕ
  account : CStr
  email : CStr
  password : Option CStr
  domain : CStr
  domain_eq : mailDomain email = some domain

/-- What the resolver finds: how many answers there are to a query for mail
exchangers, unless it fails, and whether there is an address. -/
structure Resolver where
  resQuery : CStr → Option ℕ
  gethostbyname : CStr → Bool

/-- What is the same in every run: the core's comparisons, and the sizes of names
and addresses. -/
structure Env extends Core, SaslBlacklist.Services where
  nicklen : ℕ
  emaillen : ℕ

/-- A registration, the time, and what the resolver and `fork()` answer. -/
structure Call where
  hdata : Hdata
  now : ℕ
  dns : Resolver
  fork : Option ℕ

structure State where
  waitregTime : ℕ
  guestnicks : List CStr
  nsMaillist : List NsGoodmail.Goodmail
  defcon : Defcon.State
  lists : SaslBlacklist.Lists
  mxcheck : Mxcheck.State
  registered : List (CStr × CStr)
  replies : List Output

def init (timeout : ℕ) : State :=
  ⟨0, [], [], Defcon.init timeout [] [], ⟨[], [], []⟩, Mxcheck.init, [], []⟩

/-! ### The hooks -/

def tooSoon : Output := .fail .badparams
  "You can not register your nick so soon after connecting. Please wait a while and try again."

def guestNick : Output := .fail .badparams "Registering of guest nicknames is disallowed."

def badMail : Output := .fail .noprivs
  "Sorry, we do not accept registrations with email addresses from that domain.  Use another address."

def disabled : Output := .fail .badparams
  "Registrations are currently disabled on this network, please try again later."

/-- `command_fail(...); hdata->approved++;` for each of the messages. -/
def failEach (msgs : List Output) (a : Asked State Output) : Asked State Output :=
  { a with refusals := a.refusals + msgs.length, said := a.said ++ msgs }

/-- `waitreg_hook` -/
def waitregHook (c : Call) (a : Asked State Output) : Asked State Output :=
  if c.hdata.password.isNone then a
  else if c.hdata.si.su.isNone then a
  else if (c.now : ℤ) - a.state.waitregTime ≤ c.hdata.ts then failEach [tooSoon] a
  else a

/-- `guestnoreg_hook`: every entry the name begins with counts. -/
def guestnoregHook (c : Call) (a : Asked State Output) : Asked State Output :=
  a.state.guestnicks.foldl (fun a nick =>
    if strncasecmp c.hdata.account nick nick.length then failEach [guestNick] a else a) a

/-- `check_registration` of `ns_goodmail` -/
def goodmailCheck (env : Env) (c : Call) (a : Asked State Output) : Asked State Output :=
  if a.refusals ≠ 0 then a
  else if a.state.nsMaillist.any fun l => env.matchHost l.mail c.hdata.email then a
  else failEach [badMail] a

/-- `count_mx` -/
def countMx (dns : Resolver) (host : CStr) : ℕ := if host.isEmpty then 0 else (dns.resQuery host).getD 0

/-- `check_registration` of `ns_mxcheck` -/
def mxcheck (c : Call) (a : Asked State Output) : Asked State Output :=
  if a.refusals ≠ 0 then a
  else if 0 < countMx c.dns c.hdata.domain then a
  else if c.dns.gethostbyname c.hdata.domain then a
  else failEach [.fail .noprivs (Mxcheck.noMailText c.hdata.domain)] a

/-- `check_registration` of `ns_mxcheck_async` -/
def mxcheckAsync (env : Env) (c : Call) (a : Asked State Output) : Asked State Output :=
  let r := Mxcheck.checkRegistration env.nicklen env.emaillen ⟨c.hdata.account, c.hdata.email, a.refusals ≠ 0⟩
    c.fork a.state.mxcheck
  { state := { a.state with mxcheck := r.1 }
    refusals := if r.2.approved && a.refusals = 0 then 1 else a.refusals
    said := a.said ++ r.1.out.drop a.state.mxcheck.out.length }

/-- `defcon_nouserreg` -/
def defconNouserreg (a : Asked State Output) : Asked State Output :=
  if a.state.defcon.level < 5 then failEach [disabled] a else a

/-- `blacklist_can_register` -/
def blacklistCanRegister (env : Env) (c : Call) (a : Asked State Output) : Asked State Output :=
  { a with refusals :=
      (SaslBlacklist.blacklistCanRegister env.toServices a.state.lists ⟨c.hdata.si, a.refusals⟩).approved }

/-- The hook of a module. -/
def hook (env : Env) (c : Call) : Module → Asked State Output → Asked State Output
  | .nsWaitreg => waitregHook c
  | .nsGuestnoreg => guestnoregHook c
  | .nsGoodmail => goodmailCheck env c
  | .nsMxcheck => mxcheck c
  | .nsMxcheckAsync => mxcheckAsync env c
  | .osDefcon => defconNouserreg
  | .saslBlacklist => blacklistCanRegister env c

/-! ### The runs -/

/-- An account is registered, a child exits, one of the other commands is given, or
a part of the configuration is read. -/
inductive Event
  | register (c : Call)
  | exit (pid : ℕ) (status : Mxcheck.Status) (myuserFind : CStr → Option Mxcheck.Myuser)
  | goodmail (si : Source) (now : ℕ) (parv : List CStr)
  | defcon (e : Defcon.Event)
  | waitregTime (time : ℕ)
  | guestnoregConfigPurge
  | guestnicks (entries : List CStr)
  | restrictedHosts (ce : SaslBlacklist.ConfigEntry)

/-- `hook_call_user_can_register`, and what becomes of the registration. -/
def register (env : Env) (loaded : List Module) (c : Call) (s : State) : State :=
  let a := ask (hook env c) loaded ⟨s, 0, []⟩
  { a.state with
    registered := if a.refusals = 0 then s.registered ++ [(c.hdata.account, c.hdata.email)] else s.registered
    replies := s.replies ++ a.said }

/-- A step of a server with the modules `loaded`, in this order. A forked child
gets a pid that no other has. -/
def step (env : Env) (loaded : List Module) (s : State) : Event → Option State
  | .register c =>
    if ∃ child ∈ s.mxcheck.outstanding, some child.pid = c.fork then none
    else some (register env loaded c s)
  | .exit pid status myuserFind =>
    (Mxcheck.step env.nicklen env.emaillen s.mxcheck (.exit pid status myuserFind)).map fun m =>
      { s with mxcheck := m }
  | .goodmail si now parv =>
    some { s with nsMaillist := (NsGoodmail.nsCmdGoodmail env.toCore si now parv s.nsMaillist).1 }
  | .defcon e => (Defcon.step s.defcon e).map fun d => { s with defcon := d }
  | .waitregTime time => some { s with waitregTime := time }
  | .guestnoregConfigPurge => some { s with guestnicks := [] }
  | .guestnicks entries => some { s with guestnicks := s.guestnicks ++ entries }
  | .restrictedHosts ce => some { s with lists := SaslBlacklist.cRestrictedHosts ce s.lists }

/-! ### What each module answers -/

/-- The module refuses the registration, if it is asked first. -/
def Refuses (env : Env) (c : Call) (s : State) : Module → Prop
  | .nsWaitreg => c.hdata.password.isSome = true ∧ c.hdata.si.su.isSome = true ∧ c.now ≤ c.hdata.ts + s.waitregTime
  | .nsGuestnoreg => ∃ nick ∈ s.guestnicks, strncasecmp c.hdata.account nick nick.length = true
  | .nsGoodmail => ∀ l ∈ s.nsMaillist, env.matchHost l.mail c.hdata.email = false
  | .nsMxcheck => countMx c.dns c.hdata.domain = 0 ∧ c.dns.gethostbyname c.hdata.domain = false
  | .nsMxcheckAsync => Mxcheck.MAX_CHILDPROCS ≤ s.mxcheck.proccount ∨ c.fork = none
  | .osDefcon => s.defcon.level < 5
  | .saslBlacklist => SaslBlacklist.isRestrictedUser env.toServices s.lists c.hdata.si.su = true

instance (env : Env) (c : Call) (s : State) : (m : Module) → Decidable (Refuses env c s m)
  | .nsWaitreg => inferInstanceAs (Decidable (_ ∧ _))
  | .nsGuestnoreg => inferInstanceAs (Decidable (∃ nick ∈ s.guestnicks, _))
  | .nsGoodmail => inferInstanceAs (Decidable (∀ l ∈ s.nsMaillist, _))
  | .nsMxcheck => inferInstanceAs (Decidable (_ ∧ _))
  | .nsMxcheckAsync => inferInstanceAs (Decidable (_ ∨ _))
  | .osDefcon => inferInstanceAs (Decidable (_ < _))
  | .saslBlacklist => inferInstanceAs (Decidable (_ = _))

/-- A failure for each of the nicks the name begins with. -/
def guestFailures (c : Call) (guestnicks : List CStr) : List Output :=
  (guestnicks.filter fun nick => strncasecmp c.hdata.account nick nick.length).map fun _ => guestNick

/-- What it says then. -/
def complaint (c : Call) (s : State) : Module → List Output
  | .nsWaitreg => [tooSoon]
  | .nsGuestnoreg => guestFailures c s.guestnicks
  | .nsGoodmail => [badMail]
  | .nsMxcheck => [.fail .noprivs (Mxcheck.noMailText c.hdata.domain)]
  | .nsMxcheckAsync => [Mxcheck.tooMany]
  | .osDefcon => [disabled]
  | .saslBlacklist => []

def answer (env : Env) (c : Call) (m : Module) (s : State) : Option (List Output) :=
  if Refuses env c s m then some (complaint c s m) else none

/-- The modules that look at `approved` first. -/
def polite : Module → Bool
  | .nsGoodmail | .nsMxcheck | .nsMxcheckAsync => true
  | _ => false

variable {env : Env} {c : Call} {a : Asked State Output}

theorem answer_eq_none {m : Module} {s : State} : answer env c m s = none ↔ ¬ Refuses env c s m := by
  unfold answer
  split <;> simp [*]

theorem answer_isSome {m : Module} {s : State} : (answer env c m s).isSome = true ↔ Refuses env c s m := by
  rw [Option.isSome_iff_ne_none, Ne, answer_eq_none, not_not]

theorem guestnoregHook_eq (c : Call) (a : Asked State Output) :
    guestnoregHook c a = failEach (guestFailures c a.state.guestnicks) a := by
  unfold guestnoregHook guestFailures
  generalize a.state.guestnicks = nicks
  induction nicks generalizing a with
  | nil => simp [failEach]
  | cons nick nicks ih =>
    rw [List.foldl_cons, ih, List.filter_cons]
    split
    · simp [failEach, Nat.add_assoc, Nat.add_comm]
    · rfl

theorem guestFailures_ne_nil {c : Call} {nicks : List CStr} :
    guestFailures c nicks ≠ [] ↔ ∃ nick ∈ nicks, strncasecmp c.hdata.account nick nick.length = true := by
  unfold guestFailures
  rw [Ne, List.map_eq_nil_iff, List.filter_eq_nil_iff]
  simp only [not_forall, not_not, exists_prop]

/-- `ns_mxcheck_async` refuses where it can start no child. -/
theorem mxcheckAsync_full (h : a.refusals = 0) (hr : Refuses env c a.state .nsMxcheckAsync) :
    mxcheckAsync env c a =
      { state := { a.state with mxcheck := { a.state.mxcheck with out := a.state.mxcheck.out ++ [Mxcheck.tooMany] } }
        refusals := 1
        said := a.said ++ [Mxcheck.tooMany] } := by
  have hcheck : Mxcheck.checkRegistration env.nicklen env.emaillen
      ⟨c.hdata.account, c.hdata.email, false⟩ c.fork a.state.mxcheck =
        ({ a.state.mxcheck with out := a.state.mxcheck.out ++ [Mxcheck.tooMany] },
          ⟨c.hdata.account, c.hdata.email, true⟩) := by
    unfold Mxcheck.checkRegistration
    rw [if_neg Bool.false_ne_true]
    by_cases hlt : a.state.mxcheck.proccount < Mxcheck.MAX_CHILDPROCS
    · rw [dif_pos hlt, hr.resolve_left (Nat.not_le_of_lt hlt)]
    · rw [dif_neg hlt]
  simp [mxcheckAsync, h, hcheck]

/-- Where it can, it lets the registration pass. -/
theorem mxcheckAsync_starts (h : a.refusals = 0) (hr : ¬ Refuses env c a.state .nsMxcheckAsync) :
    ∃ child : Mxcheck.Child, child.account = c.hdata.account ∧ child.email = c.hdata.email ∧
      (mxcheckAsync env c a).state.mxcheck.outstanding = a.state.mxcheck.outstanding ++ [child] ∧
      (mxcheckAsync env c a).refusals = 0 ∧ (mxcheckAsync env c a).said = a.said := by
  simp only [Refuses, not_or, Nat.not_le] at hr
  obtain ⟨hlt, hfork⟩ := hr
  obtain ⟨pid, hpid⟩ := Option.ne_none_iff_exists'.mp hfork
  refine ⟨⟨pid, ⟨a.state.mxcheck.proccount, hlt⟩, c.hdata.account, c.hdata.email,
    a.state.mxcheck.outstanding.length⟩, rfl, rfl, ?_⟩
  unfold mxcheckAsync Mxcheck.checkRegistration
  simp [h, hpid, hlt]

theorem mxcheckAsync_refused (h : a.refusals ≠ 0) : mxcheckAsync env c a = a := by
  unfold mxcheckAsync Mxcheck.checkRegistration
  simp [h]

/-- Only the hook of `ns_mxcheck_async` changes the state, and there only its
own. -/
theorem hook_state (m : Module) (a : Asked State Output) :
    (hook env c m a).state = { a.state with mxcheck := (hook env c m a).state.mxcheck } ∧
      (m ≠ .nsMxcheckAsync → (hook env c m a).state = a.state) := by
  have hsame : (hook env c m a).state = a.state →
      (hook env c m a).state = { a.state with mxcheck := (hook env c m a).state.mxcheck } ∧
        (m ≠ .nsMxcheckAsync → (hook env c m a).state = a.state) := fun h => ⟨by rw [h], fun _ => h⟩
  cases m with
  | nsMxcheckAsync => exact ⟨rfl, fun h => absurd rfl h⟩
  | nsGuestnoreg =>
    apply hsame
    rw [hook, guestnoregHook_eq]
    rfl
  | nsWaitreg =>
    apply hsame
    simp only [hook, waitregHook]
    split_ifs <;> rfl
  | nsGoodmail =>
    apply hsame
    simp only [hook, goodmailCheck]
    split_ifs <;> rfl
  | nsMxcheck =>
    apply hsame
    simp only [hook, mxcheck]
    split_ifs <;> rfl
  | osDefcon =>
    apply hsame
    simp only [hook, defconNouserreg]
    split_ifs <;> rfl
  | saslBlacklist => exact hsame rfl

/-- The answers of the others do not depend on what `ns_mxcheck_async` keeps. -/
theorem answer_apart {i j : Module} (hij : i ≠ j) (a : Asked State Output) :
    answer env c j (hook env c i a).state = answer env c j a.state := by
  by_cases hi : i = .nsMxcheckAsync
  · rw [(hook_state i a).1]
    cases j with
    | nsMxcheckAsync => exact absurd hi hij
    | _ => rfl
  · rw [(hook_state i a).2 hi]

/-- A hook does nothing where its module has nothing against the registration. -/
theorem hook_passes {m : Module} (hm : m ≠ .nsMxcheckAsync) (h : ¬ Refuses env c a.state m) :
    hook env c m a = a := by
  cases m with
  | nsMxcheckAsync => exact absurd rfl hm
  | nsWaitreg =>
    simp only [hook, waitregHook]
    split_ifs with hpass hsu htime
    · rfl
    · rfl
    · exact absurd ⟨Option.isNone_eq_false_iff.mp (Bool.eq_false_iff.mpr hpass),
        Option.isNone_eq_false_iff.mp (Bool.eq_false_iff.mpr hsu), by omega⟩ h
    · rfl
  | nsGuestnoreg =>
    rw [hook, guestnoregHook_eq, not_not.mp (mt guestFailures_ne_nil.mp h)]
    simp [failEach]
  | nsGoodmail =>
    simp only [hook, goodmailCheck]
    split_ifs with h0 hany
    · rfl
    · rfl
    · exact absurd (fun l hl => Bool.eq_false_iff.mpr fun hl' => hany (List.any_eq_true.mpr ⟨l, hl, hl'⟩)) h
  | nsMxcheck =>
    simp only [hook, mxcheck]
    split_ifs with h0 hmx hg
    · rfl
    · rfl
    · rfl
    · exact absurd ⟨by omega, Bool.eq_false_iff.mpr hg⟩ h
  | osDefcon => exact if_neg h
  | saslBlacklist =>
    have hu : ¬ SaslBlacklist.isRestrictedUser env.toServices a.state.lists c.hdata.si.su = true := h
    simp only [hook, blacklistCanRegister, SaslBlacklist.blacklistCanRegister, if_neg hu]

/-- A hook that only counts up `approved` does so for each of its complaints. -/
theorem hook_refuses {m : Module} (hm : m ≠ .nsMxcheckAsync) (hsasl : m ≠ .saslBlacklist)
    (h : Refuses env c a.state m) (h0 : polite m = true → a.refusals = 0) :
    hook env c m a = failEach (complaint c a.state m) a := by
  cases m with
  | nsMxcheckAsync => exact absurd rfl hm
  | saslBlacklist => exact absurd rfl hsasl
  | nsWaitreg =>
    obtain ⟨hpass, hsu, htime⟩ := h
    simp only [hook, waitregHook]
    rw [Option.isNone_eq_false_iff.mpr hpass, Option.isNone_eq_false_iff.mpr hsu,
      if_neg Bool.false_ne_true, if_neg Bool.false_ne_true, if_pos (by omega)]
    rfl
  | nsGuestnoreg => exact guestnoregHook_eq c a
  | nsGoodmail =>
    simp only [hook, goodmailCheck]
    rw [if_neg (not_not.mpr (h0 rfl)), if_neg]
    · rfl
    · rw [List.any_eq_true]
      intro ⟨l, hl, hmatch⟩
      rw [h l hl] at hmatch
      cases hmatch
  | nsMxcheck =>
    simp only [hook, mxcheck]
    rw [if_neg (not_not.mpr (h0 rfl)), if_neg (by rw [h.1]; omega), if_neg (by rw [h.2]; exact Bool.false_ne_true)]
    rfl
  | osDefcon => exact if_pos h

/-- A polite hook leaves alone what is refused already. -/
theorem hook_silent {m : Module} (hp : polite m = true) (h0 : a.refusals ≠ 0) : hook env c m a = a := by
  cases m with
  | nsGoodmail => exact if_pos h0
  | nsMxcheck => exact if_pos h0
  | nsMxcheckAsync => exact mxcheckAsync_refused h0
  | _ => cases hp

theorem complaint_pos {m : Module} {s : State} (hsasl : m ≠ .saslBlacklist) (h : Refuses env c s m) :
    0 < (complaint c s m).length := by
  cases m with
  | saslBlacklist => exact absurd rfl hsasl
  | nsGuestnoreg => exact List.length_pos_iff.mpr (guestFailures_ne_nil.mpr h)
  | _ => exact Nat.zero_lt_one

/-- **The hooks are checks that can refuse**, each by its own lights. -/
theorem vetoes (env : Env) (c : Call) : Vetoes (hook env c) (answer env c) polite where
  passes := by
    intro m a ha
    have hr := answer_eq_none.mp ha
    by_cases hm : m = .nsMxcheckAsync
    · subst hm
      by_cases h0 : a.refusals = 0
      · obtain ⟨-, -, -, -, href, hsaid⟩ := mxcheckAsync_starts h0 hr
        exact ⟨href.trans h0.symm, hsaid⟩
      · rw [hook_silent rfl h0]
        exact ⟨rfl, rfl⟩
    · rw [hook_passes hm hr]
      exact ⟨rfl, rfl⟩
  refuses := by
    intro m a ws ha hp
    have hr : Refuses env c a.state m := answer_isSome.mp (by rw [ha]; rfl)
    have hws : complaint c a.state m = ws := by
      rw [answer, if_pos hr] at ha
      exact Option.some.inj ha
    subst hws
    by_cases hm : m = .nsMxcheckAsync
    · subst hm
      have h0 := hp rfl
      rw [hook, mxcheckAsync_full h0 hr]
      exact ⟨by simp [h0], rfl⟩
    · by_cases hs : m = .saslBlacklist
      · subst hs
        have hu : SaslBlacklist.isRestrictedUser env.toServices a.state.lists c.hdata.si.su = true := hr
        refine ⟨?_, (List.append_nil a.said).symm⟩
        simp only [hook, blacklistCanRegister, SaslBlacklist.blacklistCanRegister, if_pos hu]
        exact Nat.lt_succ_self _
      · rw [hook_refuses hm hs hr hp]
        exact ⟨Nat.lt_add_of_pos_right (complaint_pos hs hr), rfl⟩
  silent := by
    intro m a hp h0
    rw [hook_silent hp h0]
    exact ⟨rfl, rfl⟩
  apart := fun _ _ a hij => answer_apart hij a

/-! ### What becomes of a registration -/

/-- The module gets to say why it refuses. -/
def Speaks (env : Env) (loaded : List Module) (c : Call) (s : State) (m : Module) : Prop :=
  Refuses env c s m ∧ (polite m = true → ∀ m' ∈ before loaded m, ¬ Refuses env c s m')

/-- `ns_mxcheck_async` starts a child: nobody has refused up to it. -/
def Starts (env : Env) (loaded : List Module) (c : Call) (s : State) : Prop :=
  .nsMxcheckAsync ∈ loaded ∧ ¬ Refuses env c s .nsMxcheckAsync ∧
    ∀ m ∈ before loaded .nsMxcheckAsync, ¬ Refuses env c s m

instance (env : Env) (loaded : List Module) (c : Call) (s : State) (m : Module) :
    Decidable (Speaks env loaded c s m) :=
  inferInstanceAs (Decidable (_ ∧ (_ → ∀ m' ∈ before loaded m, _)))

instance (env : Env) (loaded : List Module) (c : Call) (s : State) : Decidable (Starts env loaded c s) :=
  inferInstanceAs (Decidable (_ ∧ _ ∧ ∀ m ∈ before loaded .nsMxcheckAsync, _))

/-- What the running children were started for. -/
def checks (s : State) : List (CStr × CStr) := s.mxcheck.outstanding.map fun child => (child.account, child.email)

/-- What becomes of the registration `c`: it goes on if no module refuses it; the
modules that speak say so one after another; a child may be started. -/
structure Outcome (env : Env) (loaded : List Module) (c : Call) (s s' : State) : Prop where
  registered : s'.registered = s.registered ++
    if ∀ m ∈ loaded, ¬ Refuses env c s m then [(c.hdata.account, c.hdata.email)] else []
  replies : s'.replies = s.replies ++
    loaded.flatMap fun m => if Speaks env loaded c s m then complaint c s m else []
  checks : checks s' = checks s ++ if Starts env loaded c s then [(c.hdata.account, c.hdata.email)] else []
  rest : s' = { s with mxcheck := s'.mxcheck, registered := s'.registered, replies := s'.replies }

section Register

variable {loaded : List Module} {s s' : State}

/-- `approved` is zero after all hooks exactly if no module refuses. -/
theorem approved_iff (hn : loaded.Nodup) :
    (ask (hook env c) loaded ⟨s, 0, []⟩).refusals = 0 ↔ ∀ m ∈ loaded, ¬ Refuses env c s m := by
  refine not_iff_not.mp ?_
  rw [← Ne, ask_refused_iff (vetoes env c) hn]
  simp only [ne_eq, not_true_eq_false, false_or, answer_isSome, not_forall, not_not, exists_prop]

/-- What the library calls heard is what the modules that speak say. -/
theorem heard_eq (env : Env) (c : Call) (loaded : List Module) (s : State) :
    heard (fun m => answer env c m s) polite false loaded =
      loaded.flatMap fun m => if Speaks env loaded c s m then complaint c s m else [] := by
  refine List.flatMap_congr fun m _ => ?_
  have hany : (before loaded m).any (fun j => (answer env c j s).isSome) = true ↔
      ¬ ∀ m' ∈ before loaded m, ¬ Refuses env c s m' := by
    rw [List.any_eq_true]
    simp only [answer_isSome, not_forall, not_not, exists_prop]
  have hcond : (polite m && (false || (before loaded m).any fun j => (answer env c j s).isSome)) = true ↔
      ¬ (polite m = true → ∀ m' ∈ before loaded m, ¬ Refuses env c s m') := by
    rw [Bool.false_or, Bool.and_eq_true, hany, Classical.not_imp]
  unfold words
  beta_reduce
  by_cases hr : Refuses env c s m
  · rw [answer, if_pos hr, Option.getD_some]
    by_cases hp : polite m = true → ∀ m' ∈ before loaded m, ¬ Refuses env c s m'
    · rw [if_neg (mt hcond.mp (not_not.mpr hp)), if_pos ⟨hr, hp⟩]
    · rw [if_pos (hcond.mpr hp), if_neg fun h => hp h.2]
  · rw [answer_eq_none.mpr hr, Option.getD_none, ite_self, if_neg fun h => hr h.1]

/-- Nothing else changes. -/
theorem ask_rest (loaded : List Module) (a : Asked State Output) :
    (ask (hook env c) loaded a).state =
      { a.state with mxcheck := (ask (hook env c) loaded a).state.mxcheck } := by
  induction loaded generalizing a with
  | nil => rfl
  | cons m loaded ih =>
    rw [ask_cons, ih, (hook_state m a).1]

theorem ask_checks (loaded : List Module) (h : .nsMxcheckAsync ∉ loaded) (a : Asked State Output) :
    checks (ask (hook env c) loaded a).state = checks a.state :=
  ask_view checks fun m hm a => by rw [(hook_state m a).2 fun he => h (he ▸ hm)]

/-- The child is started by the hook of `ns_mxcheck_async`, if it is reached. -/
theorem register_checks (hn : loaded.Nodup) :
    checks (ask (hook env c) loaded ⟨s, 0, []⟩).state =
      checks s ++ if Starts env loaded c s then [(c.hdata.account, c.hdata.email)] else [] := by
  by_cases hmem : .nsMxcheckAsync ∈ loaded
  · obtain ⟨pre, post, rfl⟩ := List.append_of_mem hmem
    obtain ⟨hpre, hpost, hdis⟩ := List.nodup_append.mp hn
    have hnpre : .nsMxcheckAsync ∉ pre := fun h => hdis _ h _ List.mem_cons_self rfl
    have hnpost : .nsMxcheckAsync ∉ post := (List.nodup_cons.mp hpost).1
    obtain ⟨a, ha⟩ : ∃ a, a = ask (hook env c) pre ⟨s, 0, []⟩ := ⟨_, rfl⟩
    have hs : a.state = s := by
      rw [ha]
      exact ask_view id fun m hm a => (hook_state m a).2 fun he => hnpre (he ▸ hm)
    have happ : a.refusals = 0 ↔ ∀ m ∈ pre, ¬ Refuses env c s m := ha ▸ approved_iff hpre
    have hstarts : Starts env (pre ++ .nsMxcheckAsync :: post) c s ↔
        a.refusals = 0 ∧ ¬ Refuses env c s .nsMxcheckAsync := by
      rw [happ, and_comm]
      exact ⟨fun h => ⟨h.2.1, before_append hnpre ▸ h.2.2⟩, fun h => ⟨hmem, h.1, (before_append hnpre).symm ▸ h.2⟩⟩
    rw [ask_append, ← ha, ask_cons, ask_checks post hnpost]
    by_cases h0 : a.refusals = 0
    · by_cases hr : Refuses env c s .nsMxcheckAsync
      · rw [if_neg fun h => (hstarts.mp h).2 hr, List.append_nil, hook, mxcheckAsync_full h0 (hs.symm ▸ hr), ← hs]
        rfl
      · rw [if_pos (hstarts.mpr ⟨h0, hr⟩)]
        obtain ⟨child, hacc, hmail, hout, -⟩ := mxcheckAsync_starts h0 (hs.symm ▸ hr)
        rw [checks, hook, hout, List.map_append, List.map_singleton, hacc, hmail, hs, checks]
    · rw [if_neg fun h => h0 (hstarts.mp h).1, List.append_nil, hook_silent rfl h0, hs]
  · rw [if_neg fun h => hmem h.1, List.append_nil, ask_checks loaded hmem]

theorem register_outcome (hn : loaded.Nodup) : Outcome env loaded c s (register env loaded c s) where
  registered := by
    rw [register]
    simp only [approved_iff hn]
    split
    · rfl
    · rw [List.append_nil]
  replies := by
    rw [register, ← heard_eq]
    simp only [ask_said (vetoes env c) hn, List.nil_append, ne_eq, not_true_eq_false, decide_false]
  checks := register_checks hn
  rest := congrArg (fun t : State => { t with
    registered := (register env loaded c s).registered
    replies := (register env loaded c s).replies }) (ask_rest loaded ⟨s, 0, []⟩)

end Register

/-! ### Every run -/

/-- A server where a mask matches what it is equal to. -/
def plainEnv : Env where
  lower := id
  strftime := fun _ => ""
  matchHost := fun mask host => mask = host
  matchIps := fun _ _ => false
  saslsvs := 0
  nicklen := 31
  emaillen := 120

/-- A registration of the account `mib_7` from the host `evil`. -/
def guestCall : Call where
  hdata :=
    { si := ⟨none, none, none, some ⟨some "evil".toList, none, none, none⟩⟩
      ts := 0
      account := "mib_7".toList
      email := "a@b.c".toList
      password := some "pw".toList
      domain := "b.c".toList
      domain_eq := by decide }
  now := 100
  dns := ⟨fun _ => some 1, fun _ => true⟩
  fork := some 7

def guestRun : List Event :=
  [.guestnicks ["mib_".toList], .restrictedHosts ⟨[], [⟨"evil".toList, []⟩]⟩, .register guestCall]

/-- What a step may do: a registration has its outcome, nothing else registers or
replies. The children are counted. -/
def Proceeds (env : Env) (loaded : List Module) (s : State) (e : Event) (s' : State) : Prop :=
  s.mxcheck.proccount = s.mxcheck.outstanding.length ∧
    match e with
    | .register c => Outcome env loaded c s s'
    | _ => s'.registered = s.registered ∧ s'.replies = s.replies

variable {loaded : List Module} {s s' : State}

/-- The hooks keep the count of the children. -/
theorem hook_counted (m : Module) (h : Mxcheck.Counted a.state.mxcheck) :
    Mxcheck.Counted (hook env c m a).state.mxcheck := by
  by_cases hm : m = .nsMxcheckAsync
  · subst hm
    rw [hook, mxcheckAsync]
    rcases @Mxcheck.register_cases env.nicklen env.emaillen ⟨c.hdata.account, c.hdata.email, a.refusals ≠ 0⟩
      c.fork a.state.mxcheck with ⟨out, he, -⟩ | ⟨pid, hlt, -, -, he⟩
    · simp only [he]
      exact h
    · simp only [he]
      refine ⟨by simp [h.1], fun child hc => ?_⟩
      rcases List.mem_append.mp hc with hc | hc
      · exact h.2 child hc
      · rw [List.mem_singleton.mp hc]
        exact h.1
  · rw [(hook_state m a).2 hm]
    exact h

theorem ask_counted (loaded : List Module) (a : Asked State Output) (h : Mxcheck.Counted a.state.mxcheck) :
    Mxcheck.Counted (ask (hook env c) loaded a).state.mxcheck := by
  induction loaded generalizing a with
  | nil => exact h
  | cons m loaded ih => exact ih (hook env c m a) (hook_counted m h)

theorem register_of_step (h : step env loaded s (.register c) = some s') : s' = register env loaded c s := by
  simp only [step] at h
  split at h
  · cases h
  · exact (Option.some.inj h).symm

/-- What the other events leave alone; an exit takes a child away. -/
theorem step_other {e : Event} (he : ¬ ∃ c, e = .register c) (h : step env loaded s e = some s') :
    s'.registered = s.registered ∧ s'.replies = s.replies ∧
      (s'.mxcheck = s.mxcheck ∨ ∃ pid status find,
        Mxcheck.step env.nicklen env.emaillen s.mxcheck (.exit pid status find) = some s'.mxcheck) := by
  cases e with
  | register c => exact absurd ⟨c, rfl⟩ he
  | exit pid status find =>
    obtain ⟨m, hm, rfl⟩ := Option.map_eq_some_iff.mp h
    exact ⟨rfl, rfl, Or.inr ⟨pid, status, find, hm⟩⟩
  | defcon e =>
    obtain ⟨d, -, rfl⟩ := Option.map_eq_some_iff.mp h
    exact ⟨rfl, rfl, Or.inl rfl⟩
  | _ =>
    cases h
    exact ⟨rfl, rfl, Or.inl rfl⟩

theorem step_counted {e : Event} (hI : Mxcheck.Counted s.mxcheck) (h : step env loaded s e = some s') :
    Mxcheck.Counted s'.mxcheck := by
  by_cases he : ∃ c, e = .register c
  · obtain ⟨c, rfl⟩ := he
    rw [register_of_step h]
    exact ask_counted loaded ⟨s, 0, []⟩ hI
  · obtain ⟨-, -, hm | ⟨pid, status, find, hm⟩⟩ := step_other he h
    · rw [hm]
      exact hI
    · exact Mxcheck.step_counted hI hm

theorem counted_of_reach {timeout : ℕ} (h : Run.Reach (step env loaded) (init timeout) s) :
    Mxcheck.Counted s.mxcheck := by
  have h0 : Mxcheck.Counted (init timeout).mxcheck := ⟨rfl, fun _ hc => absurd hc List.not_mem_nil⟩
  exact Run.reach_inv (I := fun s => Mxcheck.Counted s.mxcheck) h0 (fun _ _ _ hI hs => step_counted hI hs) h

/-- **What becomes of registrations**, in whatever order the hooks are called and
the events come. -/
theorem registration_outcome (env : Env) {loaded : List Module} (hn : loaded.Nodup) (timeout : ℕ)
    (es : List Event) : Run.Along (step env loaded) (Proceeds env loaded) (init timeout) es := by
  refine Run.along_of_reach (fun s e s' hr hs => ⟨(counted_of_reach hr).1, ?_⟩) es
  by_cases he : ∃ c, e = .register c
  · obtain ⟨c, rfl⟩ := he
    rw [register_of_step hs]
    exact register_outcome hn
  · obtain ⟨hreg, hrep, -⟩ := step_other he hs
    cases e with
    | register c => exact absurd ⟨c, rfl⟩ he
    | _ => exact ⟨hreg, hrep⟩

/-- The guest is refused twice, and told so once. -/
theorem registration_outcome_guest :
    Run.Along (step plainEnv [.saslBlacklist, .nsGuestnoreg, .nsGoodmail, .nsMxcheckAsync])
        (Proceeds plainEnv [.saslBlacklist, .nsGuestnoreg, .nsGoodmail, .nsMxcheckAsync]) (init 900) guestRun ∧
      ∃ s, Run.exec (step plainEnv [.saslBlacklist, .nsGuestnoreg, .nsGoodmail, .nsMxcheckAsync]) (init 900)
        guestRun = some s ∧ s.registered = [] ∧ s.replies = [guestNick] ∧ checks s = [] :=
  ⟨registration_outcome plainEnv (by decide) 900 guestRun, _, rfl, rfl, rfl, rfl⟩

/-! ### Who is told nothing -/

theorem complaint_eq_nil {m : Module} (h : Refuses env c s m) : complaint c s m = [] ↔ m = .saslBlacklist := by
  constructor
  · intro hnil
    by_contra hm
    have := complaint_pos hm h
    rw [hnil] at this
    exact absurd this (Nat.lt_irrefl 0)
  · rintro rfl
    rfl

/-- Nobody says anything exactly if nobody but `sasl_blacklist` speaks. -/
theorem quiet_iff : (loaded.flatMap fun m => if Speaks env loaded c s m then complaint c s m else []) = [] ↔
    ∀ m ∈ loaded, Speaks env loaded c s m → m = .saslBlacklist := by
  rw [List.flatMap_eq_nil_iff]
  refine forall_congr' fun m => imp_congr_right fun _ => ?_
  by_cases hs : Speaks env loaded c s m
  · rw [if_pos hs, complaint_eq_nil hs.1]
    exact (imp_iff_right hs).symm
  · rw [if_neg hs]
    exact iff_of_true rfl fun h => absurd h hs

/-- **Who is refused without a word**: a user with a restricted address, if no hook
called before that of `sasl_blacklist` refuses, and after it only polite ones. -/
theorem refused_in_silence_iff (env : Env) {loaded : List Module} (hn : loaded.Nodup) (c : Call) {s s' : State}
    (h : step env loaded s (.register c) = some s') :
    s'.registered = s.registered ∧ s'.replies = s.replies ↔
      ∃ pre post, loaded = pre ++ .saslBlacklist :: post ∧ Refuses env c s .saslBlacklist ∧
        (∀ m ∈ pre, ¬ Refuses env c s m) ∧ ∀ m ∈ post, polite m = false → ¬ Refuses env c s m := by
  have hout : Outcome env loaded c s s' := register_of_step h ▸ register_outcome hn
  rw [hout.registered, hout.replies, List.append_right_eq_self, List.append_right_eq_self, quiet_iff]
  constructor
  · intro ⟨hreg, hquiet⟩
    have hsome : ∃ m ∈ loaded, Refuses env c s m := by
      by_contra hno
      rw [if_pos fun m hm hr => hno ⟨m, hm, hr⟩] at hreg
      cases hreg
    obtain ⟨m, hfind⟩ := Option.isSome_iff_exists.mp
      (List.find?_isSome.mpr (hsome.imp fun m hm => ⟨hm.1, decide_eq_true hm.2⟩))
    obtain ⟨hr, pre, post, rfl, hpre⟩ := List.find?_eq_some_iff_append.mp hfind
    have hr := of_decide_eq_true hr
    have hpre : ∀ m' ∈ pre, ¬ Refuses env c s m' := fun m' hm' => by simpa using hpre m' hm'
    have hmpre : m ∉ pre := fun hm => hpre m hm hr
    have hspeaks : Speaks env (pre ++ m :: post) c s m := by
      refine ⟨hr, fun _ => ?_⟩
      rw [before_append hmpre]
      exact hpre
    cases hquiet m (List.mem_append_right _ List.mem_cons_self) hspeaks
    refine ⟨pre, post, rfl, hr, hpre, fun m hm hp hrm => ?_⟩
    have hm' := hquiet m (List.mem_append_right _ (List.mem_cons_of_mem _ hm)) ⟨hrm, fun h => by
      rw [hp] at h
      cases h⟩
    rw [hm'] at hm
    exact (List.nodup_cons.mp (List.nodup_append.mp hn).2.1).1 hm
  · rintro ⟨pre, post, rfl, hr, hpre, hpost⟩
    have hmem : Module.saslBlacklist ∈ pre ++ .saslBlacklist :: post := List.mem_append_right _ List.mem_cons_self
    refine ⟨if_neg fun hall => hall _ hmem hr, fun m hm hsp => ?_⟩
    rcases List.mem_append.mp hm with hm | hm
    · exact absurd hsp.1 (hpre m hm)
    · rcases List.mem_cons.mp hm with rfl | hm
      · rfl
      · cases hp : polite m with
        | false => exact absurd hsp.1 (hpost m hm hp)
        | true => exact absurd hr (hsp.2 hp _ (mem_before hn hm))

/-- The host of the guest is restricted. -/
def evilState : State := { init 900 with lists := ⟨["evil".toList], [], []⟩ }

/-- With `sasl_blacklist` before `ns_goodmail`, the guest is told nothing. -/
theorem refused_in_silence_guest :
    Run.exec (step plainEnv [.saslBlacklist, .nsGoodmail]) (init 900)
        [.restrictedHosts ⟨[], [⟨"evil".toList, []⟩]⟩] = some evilState ∧
      ∃ s', step plainEnv [.saslBlacklist, .nsGoodmail] evilState (.register guestCall) = some s' ∧
        s'.registered = evilState.registered ∧ s'.replies = evilState.replies :=
  ⟨rfl, _, rfl, (refused_in_silence_iff plainEnv (by decide) guestCall rfl).mpr
    ⟨[], [.nsGoodmail], rfl, by decide, by decide, by decide⟩⟩

/-! ### The children -/

/-- Where its hook is called last, `ns_mxcheck_async` starts a child only for a
registration that goes on. -/
theorem starts_last {pre : List Module} (hn : (pre ++ [Module.nsMxcheckAsync]).Nodup)
    (h : Starts env (pre ++ [Module.nsMxcheckAsync]) c s) :
    ∀ m ∈ pre ++ [Module.nsMxcheckAsync], ¬ Refuses env c s m := by
  obtain ⟨-, hr, hpre⟩ := h
  rw [before_append fun h => (List.nodup_append.mp hn).2.2 _ h _ List.mem_cons_self rfl] at hpre
  intro m hm
  rcases List.mem_append.mp hm with hm | hm
  · exact hpre m hm
  · rw [List.mem_singleton.mp hm]
    exact hr

/-- A step keeps what the running children are for. -/
theorem step_children {pre : List Module} (hn : (pre ++ [Module.nsMxcheckAsync]).Nodup) {e : Event}
    (hI : ∀ p ∈ checks s, p ∈ s.registered) (h : step env (pre ++ [Module.nsMxcheckAsync]) s e = some s') :
    ∀ p ∈ checks s', p ∈ s'.registered := by
  intro p hp
  by_cases he : ∃ c, e = .register c
  · obtain ⟨c, rfl⟩ := he
    have hout : Outcome env (pre ++ [Module.nsMxcheckAsync]) c s s' := register_of_step h ▸ register_outcome hn
    rw [hout.checks] at hp
    rw [hout.registered]
    rcases List.mem_append.mp hp with hp | hp
    · exact List.mem_append_left _ (hI p hp)
    · by_cases hs : Starts env (pre ++ [Module.nsMxcheckAsync]) c s
      · rw [if_pos hs] at hp
        rw [if_pos (starts_last hn hs)]
        exact List.mem_append_right _ hp
      · rw [if_neg hs] at hp
        exact absurd hp List.not_mem_nil
  · obtain ⟨hreg, -, hm | ⟨pid, status, find, hm⟩⟩ := step_other he h
    · rw [checks, hm] at hp
      rw [hreg]
      exact hI p hp
    · obtain ⟨child, -, -, -, hout⟩ := Mxcheck.exit_eq hm
      rw [checks, hout] at hp
      rw [hreg]
      exact hI p ((List.erase_sublist.map _).subset hp)

/-- **Every running child is one for a registration that went on**, if the hook of
`ns_mxcheck_async` is called last. -/
theorem children_registered (env : Env) {pre : List Module} (hn : (pre ++ [Module.nsMxcheckAsync]).Nodup)
    (timeout : ℕ) (es : List Event) :
    Run.Always (step env (pre ++ [Module.nsMxcheckAsync])) (fun s => ∀ p ∈ checks s, p ∈ s.registered)
      (init timeout) es := by
  have h0 : ∀ p ∈ checks (init timeout), p ∈ (init timeout).registered := fun p hp => absurd hp List.not_mem_nil
  refine ⟨h0, Run.along_of_reach (fun s e s' hr hs => ?_) es⟩
  exact step_children hn (Run.reach_inv h0 (fun _ _ _ hI hs => step_children hn hI hs) hr) hs

/-- Two registrations, and two children running. -/
theorem children_registered_two :
    Run.Always (step plainEnv ([.osDefcon] ++ [Module.nsMxcheckAsync])) (fun s => ∀ p ∈ checks s, p ∈ s.registered)
        (init 900) [.register guestCall, .register { guestCall with fork := some 8 }] ∧
      ∃ s, Run.exec (step plainEnv ([.osDefcon] ++ [Module.nsMxcheckAsync])) (init 900)
        [.register guestCall, .register { guestCall with fork := some 8 }] = some s ∧ (checks s).length = 2 :=
  ⟨children_registered plainEnv (by decide) 900 _, _, rfl, rfl⟩

end Registration
end AthemeContrib
