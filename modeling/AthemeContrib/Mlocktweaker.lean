/-
# mlocktweaker: the mode lock of a new channel

The setting `mlocktweak` is a mode string, read from left to right: a sign says
which of the two locks the letters behind it go to. At the end a mode that is
in both is taken out of `mlock_off`. So `+` has the last word, not the last
sign: a mode that is locked on when the channel is registered, or anywhere in
the string, stays locked on (`preset_stays`), and `-t`, which the setting has
by default, does nothing to the `+t` of a new channel
(`fregister_keeps_topic`).

Key definitions: `Mychan`, `tweak`, `handleChannelRegister`, `fregisterLocks`,
`Occurs`, `Last`, `LastWord`, `Unlocked`.
Key theorems: `handleChannelRegister_on`, `handleChannelRegister_off`, `preset_stays`,
`last_word_iff`, `fregister_keeps_topic`.
-/
import AthemeContrib.Lib.CString
import AthemeContrib.Lib.Flags
import Mathlib.Data.List.Basic
import Mathlib.Data.List.Induction

namespace AthemeContrib
namespace Mlocktweaker

open Flags

/-- `unsigned int` -/
abbrev Modes := BitVec 32

/-- The two locks of a registered channel. -/
structure Mychan where
  mlockOn : Modes
  mlockOff : Modes
deriving DecidableEq, Repr

/-- `target`: `&mc->mlock_on` or `&mc->mlock_off`. -/
inductive Target
  | mlockOn
  | mlockOff
deriving DecidableEq, Repr

/-- `*target |= flag` -/
def Mychan.lock (mc : Mychan) (target : Target) (flag : Modes) : Mychan :=
  match target with
  | .mlockOn => { mc with mlockOn := mc.mlockOn ||| flag }
  | .mlockOff => { mc with mlockOff := mc.mlockOff ||| flag }

section Handler

-- `mode_to_flag`
variable (modeToFlag : Char → Modes)

/-- One character of the setting. -/
def tweak (st : Target × Mychan) (it : Char) : Target × Mychan :=
  match it with
  | '+' => (.mlockOn, st.2)
  | '-' => (.mlockOff, st.2)
  | _ => (st.1, st.2.lock st.1 (modeToFlag it))

/-- `handle_channel_register(hdata)`: the channel afterwards. -/
def handleChannelRegister (mlocktweak : CStr) (mc : Option Mychan) : Option Mychan :=
  match mc with
  | none => none
  | some mc =>
    let mc := (mlocktweak.foldl (tweak modeToFlag) (.mlockOn, mc)).2
    some { mc with mlockOff := mc.mlockOff &&& ~~~mc.mlockOn }

end Handler

/-- The modes that `FREGISTER` locks. -/
structure Cmodes where
  NOEXT : Modes
  TOPIC : Modes
  LIMIT : Modes
  KEY : Modes

/-- The locks that `cs_cmd_fregister` sets, of a channel with this `limit` and
`key`, before it calls the hook. -/
def fregisterLocks (cm : Cmodes) (limit : ℕ) (key : Option CStr) : Mychan :=
  let mc : Mychan := ⟨cm.NOEXT ||| cm.TOPIC, 0#32⟩
  let mc := if limit = 0 then mc.lock .mlockOff cm.LIMIT else mc
  if key = none then mc.lock .mlockOff cm.KEY else mc

/-! ### The signs -/

/-- A sign, and the lock it stands for. -/
def signOf (c : Char) : Option Target :=
  if c = '+' then some .mlockOn else if c = '-' then some .mlockOff else none

/-- The sign that is in force behind `s`; `+` if there is none. -/
def signAfter (s : CStr) : Target := (s.filterMap signOf).getLast?.getD .mlockOn

/-- The letter `c` occurs, with this sign in force. -/
def Occurs (s : CStr) (target : Target) (c : Char) : Prop :=
  ∃ a b, s = a ++ c :: b ∧ signAfter a = target ∧ signOf c = none

/-- The letter `c` occurs, and this is the sign in force where it occurs last. -/
def Last (s : CStr) (target : Target) (c : Char) : Prop :=
  ∃ a b, s = a ++ c :: b ∧ signAfter a = target ∧ signOf c = none ∧ c ∉ b

theorem Last.occurs {s : CStr} {target : Target} {c : Char} (h : Last s target c) : Occurs s target c := by
  obtain ⟨a, b, hs, ha, hc, -⟩ := h
  exact ⟨a, b, hs, ha, hc⟩

theorem signAfter_append_singleton (s : CStr) (c : Char) :
    signAfter (s ++ [c]) = (signOf c).getD (signAfter s) := by
  unfold signAfter
  rw [List.filterMap_append, List.filterMap_cons, List.filterMap_nil]
  cases signOf c with
  | none => simp
  | some target => simp

/-- One more character: an occurrence more if it is a letter. -/
theorem occurs_append_singleton {s : CStr} {d : Char} {target : Target} {c : Char} :
    Occurs (s ++ [d]) target c ↔ Occurs s target c ∨ (c = d ∧ signAfter s = target ∧ signOf c = none) := by
  constructor
  · intro ⟨a, b, hs, ha, hc⟩
    rcases List.eq_nil_or_concat' b with rfl | ⟨b, e, rfl⟩
    · obtain ⟨rfl, hd⟩ := List.append_inj' hs rfl
      exact Or.inr ⟨(List.singleton_inj.mp hd).symm, ha, hc⟩
    · rw [← List.cons_append, ← List.append_assoc] at hs
      obtain ⟨rfl, -⟩ := List.append_inj' hs rfl
      exact Or.inl ⟨a, b, rfl, ha, hc⟩
  · rintro (⟨a, b, rfl, ha, hc⟩ | ⟨rfl, hs, hc⟩)
    · exact ⟨a, b ++ [d], by simp, ha, hc⟩
    · exact ⟨s, [], rfl, hs, hc⟩

/-- Behind a sign, or under another one, no letter more occurs. -/
theorem occurs_append_other {s : CStr} {d : Char} {target : Target}
    (h : signOf d = none → signAfter s ≠ target) (c : Char) :
    Occurs (s ++ [d]) target c ↔ Occurs s target c := by
  rw [occurs_append_singleton]
  apply or_iff_left
  intro ⟨hcd, hs, hc⟩
  rw [hcd] at hc
  exact h hc hs

theorem not_occurs_nil (target : Target) (c : Char) : ¬ Occurs [] target c := by
  rintro ⟨a, b, hs, -⟩
  simp at hs

/-! ### The locks -/

/-- The lock that a target is. -/
def Mychan.get (mc : Mychan) : Target → Modes
  | .mlockOn => mc.mlockOn
  | .mlockOff => mc.mlockOff

theorem get_lock (mc : Mychan) (target target' : Target) (flag : Modes) : (mc.lock target flag).get target' =
    if target = target' then mc.get target' ||| flag else mc.get target' := by
  cases target <;> cases target' <;> rfl

section Locks

variable {modeToFlag : Char → Modes}

theorem tweak_sign (st : Target × Mychan) {c : Char} {target : Target} (h : signOf c = some target) :
    tweak modeToFlag st c = (target, st.2) := by
  unfold signOf at h
  split at h
  · rename_i hc
    cases h
    rw [hc]
    rfl
  · split at h
    · rename_i hc
      cases h
      rw [hc]
      rfl
    · cases h

theorem tweak_letter (st : Target × Mychan) {c : Char} (h : signOf c = none) :
    tweak modeToFlag st c = (st.1, st.2.lock st.1 (modeToFlag c)) := by
  unfold tweak
  split
  · cases h
  · cases h
  · rfl

/-- **The setting read so far**: the target is the lock of the sign in force,
and each lock has what it had and the letters that occurred under its sign. -/
theorem foldl_tweak (mc : Mychan) (s : CStr) :
    (s.foldl (tweak modeToFlag) (.mlockOn, mc)).1 = signAfter s ∧
    ∀ target i, ((s.foldl (tweak modeToFlag) (.mlockOn, mc)).2.get target).getLsbD i = true ↔
      (mc.get target).getLsbD i = true ∨ ∃ c, Occurs s target c ∧ (modeToFlag c).getLsbD i = true := by
  induction s using List.reverseRecOn with
  | nil =>
    refine ⟨rfl, fun target i => ⟨Or.inl, ?_⟩⟩
    rintro (h | ⟨c, hc, -⟩)
    · exact h
    · exact absurd hc (not_occurs_nil target c)
  | append_singleton s d ih =>
    obtain ⟨hsign, hlocks⟩ := ih
    rw [List.foldl_append, List.foldl_cons, List.foldl_nil, signAfter_append_singleton]
    cases hd : signOf d with
    | some t =>
      -- a sign: no letter more
      rw [tweak_sign _ hd]
      refine ⟨rfl, fun target i => ?_⟩
      rw [hlocks]
      have hother : signOf d = none → signAfter s ≠ target := by simp [hd]
      simp only [occurs_append_other hother]
    | none =>
      rw [tweak_letter _ hd, hsign]
      refine ⟨rfl, fun target i => ?_⟩
      rw [get_lock]
      by_cases ht : signAfter s = target
      · rw [if_pos ht, BitVec.getLsbD_or, Bool.or_eq_true, hlocks, or_assoc]
        apply or_congr_right
        constructor
        · rintro (⟨c, hc, hi⟩ | hi)
          · exact ⟨c, occurs_append_singleton.mpr (Or.inl hc), hi⟩
          · exact ⟨d, occurs_append_singleton.mpr (Or.inr ⟨rfl, ht, hd⟩), hi⟩
        · intro ⟨c, hc, hi⟩
          rcases occurs_append_singleton.mp hc with hc | ⟨rfl, -, -⟩
          · exact Or.inl ⟨c, hc, hi⟩
          · exact Or.inr hi
      · rw [if_neg ht, hlocks]
        simp only [occurs_append_other fun _ => ht]

variable {mlocktweak : CStr} {mc mc' : Mychan}

/-- Locked on in the end: what was, and what occurs under a `+`. -/
theorem handleChannelRegister_on (h : handleChannelRegister modeToFlag mlocktweak (some mc) = some mc')
    (i : ℕ) : mc'.mlockOn.getLsbD i = true ↔ mc.mlockOn.getLsbD i = true ∨
      ∃ c, Occurs mlocktweak .mlockOn c ∧ (modeToFlag c).getLsbD i = true := by
  cases h
  exact (foldl_tweak mc mlocktweak).2 .mlockOn i

/-- Locked off: what was, and what occurs under a `-`, unless it is locked on. -/
theorem handleChannelRegister_off (h : handleChannelRegister modeToFlag mlocktweak (some mc) = some mc')
    {i : ℕ} (hi : i < 32) : mc'.mlockOff.getLsbD i = true ↔ mc'.mlockOn.getLsbD i = false ∧
      (mc.mlockOff.getLsbD i = true ∨
        ∃ c, Occurs mlocktweak .mlockOff c ∧ (modeToFlag c).getLsbD i = true) := by
  cases h
  have hoff := (@foldl_tweak modeToFlag mc mlocktweak).2 .mlockOff i
  simp only [Mychan.get] at hoff
  simp only [BitVec.getLsbD_and, BitVec.getLsbD_not, hi, decide_true, Bool.true_and, Bool.and_eq_true,
    Bool.not_eq_true']
  rw [hoff, and_comm]

/-- A mode that is locked on when the channel is registered stays locked on. -/
theorem preset_stays (h : handleChannelRegister modeToFlag mlocktweak (some mc) = some mc') {f : Modes}
    (hf : Has mc.mlockOn f) : Has mc'.mlockOn f := by
  rw [has_iff] at hf ⊢
  exact fun i hi => (handleChannelRegister_on h i).mpr (Or.inl (hf i hi))

/-- The two locks have no mode in common. -/
theorem locks_disjoint (h : handleChannelRegister modeToFlag mlocktweak (some mc) = some mc') :
    Lacks mc'.mlockOn mc'.mlockOff := by
  rw [lacks_iff]
  intro i hi
  exact ((handleChannelRegister_off h (BitVec.lt_of_getLsbD hi)).mp hi).1

/-- A letter that occurs under a `+` is locked on. -/
theorem has_of_occurs (h : handleChannelRegister modeToFlag mlocktweak (some mc) = some mc') {c : Char}
    (hc : Occurs mlocktweak .mlockOn c) : Has mc'.mlockOn (modeToFlag c) := by
  rw [has_iff]
  exact fun i hi => (handleChannelRegister_on h i).mpr (Or.inr ⟨c, hc, hi⟩)

/-- What is locked on is not locked off. -/
theorem lacks_off_of_has (h : handleChannelRegister modeToFlag mlocktweak (some mc) = some mc') {f : Modes}
    (hf : Has mc'.mlockOn f) : Lacks mc'.mlockOff f := by
  have hdisjoint := lacks_iff.mp (locks_disjoint h)
  rw [lacks_iff]
  intro i hi
  by_contra hoff
  have hon := hdisjoint i (by simpa using hoff)
  rw [has_iff.mp hf i hi] at hon
  cases hon

end Locks

/-! ### The last word -/

/-- The configuration has the last word: a letter is locked the way its last
sign says, and only that way; what is not mentioned stays as it was. -/
structure LastWord (modeToFlag : Char → Modes) (mlocktweak : CStr) (mc mc' : Mychan) : Prop where
  plus : ∀ c, Last mlocktweak .mlockOn c →
    Has mc'.mlockOn (modeToFlag c) ∧ Lacks mc'.mlockOff (modeToFlag c)
  minus : ∀ c, Last mlocktweak .mlockOff c →
    Has mc'.mlockOff (modeToFlag c) ∧ Lacks mc'.mlockOn (modeToFlag c)
  others : ∀ f, (∀ c ∈ mlocktweak, signOf c = none → Lacks (modeToFlag c) f) →
    mc'.mlockOn &&& f = mc.mlockOn &&& f ∧ mc'.mlockOff &&& f = mc.mlockOff &&& f
  disjoint : Lacks mc'.mlockOn mc'.mlockOff

/-- A mode whose last sign is `-` is not locked on before, and never under a
`+` in the setting. -/
def Unlocked (modeToFlag : Char → Modes) (mlocktweak : CStr) (mc : Mychan) : Prop :=
  ∀ c, Last mlocktweak .mlockOff c → modeToFlag c ≠ 0#32 →
    Lacks mc.mlockOn (modeToFlag c) ∧ ¬ Occurs mlocktweak .mlockOn c

section LastWord

variable {modeToFlag : Char → Modes} {mlocktweak : CStr} {mc mc' : Mychan}

/-- What is not mentioned stays as it was. -/
theorem others_kept (hmc : Lacks mc.mlockOn mc.mlockOff)
    (h : handleChannelRegister modeToFlag mlocktweak (some mc) = some mc') {f : Modes}
    (hf : ∀ c ∈ mlocktweak, signOf c = none → Lacks (modeToFlag c) f) :
    mc'.mlockOn &&& f = mc.mlockOn &&& f ∧ mc'.mlockOff &&& f = mc.mlockOff &&& f := by
  have hno : ∀ i, f.getLsbD i = true → ∀ target,
      ¬ ∃ c, Occurs mlocktweak target c ∧ (modeToFlag c).getLsbD i = true := by
    rintro i hi target ⟨c, ⟨a, b, rfl, -, hc⟩, hbit⟩
    have hlacks := lacks_iff.mp (hf c (by simp) hc) i hi
    rw [hlacks] at hbit
    cases hbit
  have hon : ∀ i, f.getLsbD i = true → mc'.mlockOn.getLsbD i = mc.mlockOn.getLsbD i := by
    intro i hi
    rw [Bool.eq_iff_iff, handleChannelRegister_on h i, or_iff_left (hno i hi .mlockOn)]
  refine ⟨and_eq_and_iff.mpr hon, and_eq_and_iff.mpr fun i hi => ?_⟩
  rw [Bool.eq_iff_iff, handleChannelRegister_off h (BitVec.lt_of_getLsbD hi), hon i hi,
    or_iff_left (hno i hi .mlockOff)]
  exact ⟨And.right, fun hoff => ⟨lacks_iff.mp hmc i hoff, hoff⟩⟩

/-- A letter whose last sign is `-` is locked off exactly if nothing else has
locked it on. -/
theorem minus_iff (hflag : ∀ c d, c ≠ d → Lacks (modeToFlag c) (modeToFlag d))
    (h : handleChannelRegister modeToFlag mlocktweak (some mc) = some mc') {c : Char}
    (hc : Last mlocktweak .mlockOff c) :
    (Has mc'.mlockOff (modeToFlag c) ∧ Lacks mc'.mlockOn (modeToFlag c)) ↔ (modeToFlag c ≠ 0#32 →
      Lacks mc.mlockOn (modeToFlag c) ∧ ¬ Occurs mlocktweak .mlockOn c) := by
  constructor
  · rintro ⟨-, hlacks⟩ h0
    constructor
    · rw [lacks_iff] at hlacks ⊢
      intro i hi
      have hbit := hlacks i hi
      by_contra hon
      rw [(handleChannelRegister_on h i).mpr (Or.inl (by simpa using hon))] at hbit
      cases hbit
    · exact fun hplus => h0 (eq_zero_of_has_lacks (has_of_occurs h hplus) hlacks)
  · intro hcond
    have hon : ∀ i, (modeToFlag c).getLsbD i = true → mc'.mlockOn.getLsbD i = false := by
      intro i hi
      have h0 : modeToFlag c ≠ 0#32 := by
        intro h0
        rw [h0, BitVec.getLsbD_zero] at hi
        cases hi
      obtain ⟨hpreset, hplus⟩ := hcond h0
      by_contra hbit
      rw [Bool.not_eq_false, handleChannelRegister_on h i] at hbit
      rcases hbit with hbit | ⟨d, hd, hbit⟩
      · rw [lacks_iff.mp hpreset i hi] at hbit
        cases hbit
      · have hne : d ≠ c := fun heq => hplus (heq ▸ hd)
        rw [lacks_iff.mp (hflag d c hne) i hi] at hbit
        cases hbit
    refine ⟨has_iff.mpr fun i hi => ?_, lacks_iff.mpr hon⟩
    exact (handleChannelRegister_off h (BitVec.lt_of_getLsbD hi)).mpr
      ⟨hon i hi, Or.inr ⟨c, hc.occurs, hi⟩⟩

end LastWord

/-- **The configuration has the last word** exactly if no mode that it takes
off is locked on already, by the registration or by the setting itself. -/
theorem last_word_iff {modeToFlag : Char → Modes}
    (hflag : ∀ c d, c ≠ d → Lacks (modeToFlag c) (modeToFlag d)) (mlocktweak : CStr) {mc : Mychan}
    (hmc : Lacks mc.mlockOn mc.mlockOff) :
    (∃ mc', handleChannelRegister modeToFlag mlocktweak (some mc) = some mc' ∧
      LastWord modeToFlag mlocktweak mc mc') ↔ Unlocked modeToFlag mlocktweak mc := by
  obtain ⟨mc', h⟩ : ∃ mc', handleChannelRegister modeToFlag mlocktweak (some mc) = some mc' := ⟨_, rfl⟩
  constructor
  · intro ⟨mc'', h', hword⟩ c hc
    exact (minus_iff hflag h' hc).mp (hword.minus c hc)
  · intro hunlocked
    refine ⟨mc', h, fun c hc => ?_, fun c hc => ?_, fun f hf => ?_, locks_disjoint h⟩
    · have hhas := has_of_occurs h hc.occurs
      exact ⟨hhas, lacks_off_of_has h hhas⟩
    · exact (minus_iff hflag h hc).mpr (hunlocked c hc)
    · exact others_kept hmc h hf

/-- The flags of three letters. -/
def ntc (c : Char) : Modes :=
  if c = 'n' then 1#32 else if c = 't' then 2#32 else if c = 'c' then 4#32 else 0#32

theorem ntc_disjoint (c d : Char) (h : c ≠ d) : Lacks (ntc c) (ntc d) := by
  unfold ntc
  split_ifs <;> first | decide | (subst_vars; exact absurd rfl h)

/-- `-t+c`, of a channel that is registered with `+n` alone. -/
theorem last_word_plain : Lacks (⟨1#32, 0#32⟩ : Mychan).mlockOn (⟨1#32, 0#32⟩ : Mychan).mlockOff ∧
    ((∃ mc', handleChannelRegister ntc "-t+c".toList (some ⟨1#32, 0#32⟩) = some mc' ∧
      LastWord ntc "-t+c".toList ⟨1#32, 0#32⟩ mc') ↔ Unlocked ntc "-t+c".toList ⟨1#32, 0#32⟩) :=
  ⟨by decide, last_word_iff ntc_disjoint "-t+c".toList (by decide)⟩

/-! ### Channels that are registered with FREGISTER -/

theorem fregisterLocks_on (cm : Cmodes) (limit : ℕ) (key : Option CStr) :
    (fregisterLocks cm limit key).mlockOn = cm.NOEXT ||| cm.TOPIC := by
  unfold fregisterLocks
  simp only [Mychan.lock]
  split <;> split <;> rfl

/-- Whatever the setting is, `FREGISTER` locks `+t` on. -/
theorem fregister_keeps_topic {modeToFlag : Char → Modes} {mlocktweak : CStr} {cm : Cmodes} {limit : ℕ}
    {key : Option CStr} {mc' : Mychan}
    (h : handleChannelRegister modeToFlag mlocktweak (some (fregisterLocks cm limit key)) = some mc') :
    Has mc'.mlockOn cm.TOPIC := by
  apply preset_stays h
  rw [fregisterLocks_on, has_iff]
  intro i hi
  rw [BitVec.getLsbD_or, hi, Bool.or_true]

/-- The default setting, and a channel without a limit and without a key that
is registered with `FREGISTER`: `-t` does not take `+t` off. -/
theorem topic_not_negated :
    fregisterLocks ⟨ntc 'n', ntc 't', 8#32, 16#32⟩ 0 none = ⟨3#32, 24#32⟩ ∧
    handleChannelRegister ntc "-t+c".toList (some ⟨3#32, 24#32⟩) = some ⟨7#32, 24#32⟩ ∧
    ¬ ∃ mc', handleChannelRegister ntc "-t+c".toList (some ⟨3#32, 24#32⟩) = some mc' ∧
      LastWord ntc "-t+c".toList ⟨3#32, 24#32⟩ mc' := by
  have hrun : handleChannelRegister ntc "-t+c".toList (some ⟨3#32, 24#32⟩) = some ⟨7#32, 24#32⟩ := by decide
  refine ⟨by decide, hrun, ?_⟩
  intro ⟨mc', h, hword⟩
  rw [hrun] at h
  cases h
  have hlast : Last "-t+c".toList .mlockOff 't' := ⟨['-'], "+c".toList, rfl, rfl, rfl, by decide⟩
  exact absurd (hword.minus 't' hlast).1 (by decide)

end Mlocktweaker
end AthemeContrib
