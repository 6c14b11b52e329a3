/-
# ns_cleannick: nicknames with too many capitals

A user whose nickname is more than 35 per cent capitals, when they connect or
change it, is forced to a nickname without them. The loop that lowers the
letters steps to the next one before it looks at any, so the first letter
stays as it is: `LaMENiCK` becomes `Lamenick`, where the module's own comment
says `lamenick`, and a nickname of one or two letters can stay too lame to be
forced on anyone.

A nickname is cleaned as it should be if its first letter is no capital
(`cleansUp_iff`). What is forced is never forced again (`forced_settles`).

Key definitions: `Compat`, `isNicknameLame`, `lowerRest`, `cleanNickname`,
`userStateChanged`, `Lame`, `CleansUp`.
Key theorems: `isNicknameLame_iff`, `lowerRest_eq`, `forced_settles`, `cleansUp_iff`.
-/
import AthemeContrib.Command

namespace AthemeContrib
namespace NsCleannick

open CStr

/-- What the module uses of the services core: `IsUpper`, `ToLower`,
`COMPAT_NICKLEN`, and the name of the network. -/
structure Compat where
  isUpper : Char → Bool
  toLower : Char → Char
  nicklen : ℕ
  netname : String

/-- A user as far as the hook looks at them. -/
structure User where
  nick : CStr
  internal : Bool
deriving DecidableEq, Repr

/-- What the hook does: a notice, or `fnc_sts(nicksvs.me->me, u, newnick,
FNC_FORCE)`. -/
inductive Action
  | irc (o : Output)
  | fncSts (nick newnick : CStr)
deriving DecidableEq, Repr

/-- `is_nickname_lame`: the score is above 0.35. -/
def isNicknameLame (compat : Compat) (nickname : CStr) : Bool :=
  let capcount := nickname.foldl (fun n p => if compat.isUpper p then n + 1 else n) 0
  7 * nickname.length < 20 * capcount

/-- The loop of `clean_nickname` at the letter `c`, with `s` after it: `*p++`
reads `c`, and `p` is then at the next letter. -/
def lowerRest (compat : Compat) (c : Char) : CStr → CStr
  | [] => [c]
  | d :: s => c :: lowerRest compat (if compat.isUpper d then compat.toLower d else d) s

/-- `nickbuf` after the loop. -/
def lowerLoop (compat : Compat) : CStr → CStr
  | [] => []
  | c :: s => lowerRest compat c s

/-- `clean_nickname` -/
def cleanNickname (compat : Compat) (u : User) : List Action :=
  let nickbuf := lowerLoop compat (strlcpy u.nick (compat.nicklen + 1))
  if isNicknameLame compat nickbuf then []
  else
    let nick := String.ofList nickbuf
    [.irc (.notice (String.ofList u.nick)
        s!"Your nick has been changed to \x02{nick}\x02 per {compat.netname} nickname quality guidelines."),
      .fncSts u.nick nickbuf]

/-- `user_state_changed`, with `data->u`. -/
def userStateChanged (compat : Compat) (u : Option User) : List Action :=
  match u with
  | none => []
  | some u => if !u.internal && isNicknameLame compat u.nick then cleanNickname compat u else []

/-- The nicknames that are forced on someone. -/
def forced (actions : List Action) : List CStr :=
  actions.filterMap fun
    | .fncSts _ newnick => some newnick
    | .irc _ => none

/-! ### What the two loops compute -/

/-- More than 35 per cent of the letters are capitals. -/
def Lame (nick : CStr) : Prop := 7 * nick.length < 20 * nick.countP Char.isUpper

instance (nick : CStr) : Decidable (Lame nick) := inferInstanceAs (Decidable (_ < _))

section
variable {compat : Compat}

theorem capcount_eq (nick : CStr) : ∀ n : ℕ,
    nick.foldl (fun n p => if compat.isUpper p then n + 1 else n) n = n + nick.countP compat.isUpper := by
  induction nick with
  | nil => exact fun n => rfl
  | cons c s ih =>
    intro n
    rw [List.foldl_cons, ih, List.countP_cons]
    split <;> omega

theorem isNicknameLame_iff (hupper : ∀ c, compat.isUpper c = c.isUpper) (nick : CStr) :
    isNicknameLame compat nick = true ↔ Lame nick := by
  have hfun : compat.isUpper = Char.isUpper := funext hupper
  rw [isNicknameLame, capcount_eq, hfun, Nat.zero_add, decide_eq_true_iff, Lame]

/-- The letters after the first are lowered. -/
theorem lowerRest_eq (c : Char) (s : CStr) :
    lowerRest compat c s = c :: s.map fun d => if compat.isUpper d then compat.toLower d else d := by
  induction s generalizing c with
  | nil => rfl
  | cons d s ih => rw [lowerRest, ih, List.map_cons]

/-- The cleaned nickname, whose first letter is the one it had. -/
theorem lowerLoop_eq (c : Char) (s : CStr) :
    lowerLoop compat (c :: s) = c :: s.map fun d => if compat.isUpper d then compat.toLower d else d :=
  lowerRest_eq c s

/-- A nickname whose letters are all lowered is not lame. -/
theorem not_lame_map {f : Char → Char} (hf : ∀ c, compat.isUpper (f c) = false) (nick : CStr) :
    isNicknameLame compat (nick.map f) = false := by
  have hcount : (nick.map f).countP compat.isUpper = 0 := by
    rw [List.countP_eq_zero]
    intro d hd
    obtain ⟨e, -, rfl⟩ := List.mem_map.mp hd
    rw [hf e]
    exact Bool.false_ne_true
  rw [isNicknameLame, capcount_eq, hcount]
  exact decide_eq_false (by omega)

/-! ### What is forced -/

theorem userStateChanged_calm {nick : CStr} (h : isNicknameLame compat nick = false) (internal : Bool) :
    userStateChanged compat (some ⟨nick, internal⟩) = [] := by
  simp [userStateChanged, h]

/-- A nickname that is lame is lowered, and forced unless it is still lame. -/
theorem forced_lame {nick : CStr} (hlen : nick.length ≤ compat.nicklen)
    (h : isNicknameLame compat nick = true) :
    forced (userStateChanged compat (some ⟨nick, false⟩)) =
      if isNicknameLame compat (lowerLoop compat nick) then [] else [lowerLoop compat nick] := by
  have hbuf : strlcpy nick (compat.nicklen + 1) = nick := strlcpy_eq_self (Nat.lt_succ_of_le hlen)
  simp only [userStateChanged, h, Bool.not_false, Bool.and_self, if_true, cleanNickname, hbuf]
  split
  · rfl
  · rfl

/-- **What is forced is left alone**: no user is renamed again and again. -/
theorem forced_settles {u : Option User} {newnick : CStr}
    (h : newnick ∈ forced (userStateChanged compat u)) (internal : Bool) :
    userStateChanged compat (some ⟨newnick, internal⟩) = [] := by
  apply userStateChanged_calm
  cases u with
  | none => simp [userStateChanged, forced] at h
  | some u =>
    rw [userStateChanged] at h
    split at h
    · rw [cleanNickname] at h
      split at h
      · simp [forced] at h
      · rename_i hcalm
        have heq : newnick = lowerLoop compat (strlcpy u.nick (compat.nicklen + 1)) := by
          simpa [forced] using h
        rw [heq]
        exact Bool.eq_false_iff.mpr hcalm
    · simp [forced] at h

end

/-! ### Cleaned in one step -/

/-- A nickname that is lame is changed once, to the same letters in lower
case, and that is left alone; any other is left alone. -/
def CleansUp (compat : Compat) (nick : CStr) : Prop :=
  if Lame nick then
    forced (userStateChanged compat (some ⟨nick, false⟩)) = [nick.map compat.toLower] ∧
      forced (userStateChanged compat (some ⟨nick.map compat.toLower, false⟩)) = []
  else userStateChanged compat (some ⟨nick, false⟩) = []

/-- `ToLower` changes neither the first letter nor one after it that is no
capital. -/
def LowersRest (compat : Compat) (nick : CStr) : Prop :=
  (∀ c ∈ nick.head?, compat.toLower c = c) ∧
    ∀ d ∈ nick.tail, compat.isUpper d = false → compat.toLower d = d

section
variable {compat : Compat}

/-- The loop lowers every letter if there is nothing to lower that it does not
come to. -/
theorem lowerLoop_eq_iff (nick : CStr) :
    lowerLoop compat nick = nick.map compat.toLower ↔ LowersRest compat nick := by
  cases nick with
  | nil => simp [lowerLoop, LowersRest]
  | cons c s =>
    have hletter : ∀ d, (if compat.isUpper d then compat.toLower d else d) = compat.toLower d ↔
        (compat.isUpper d = false → compat.toLower d = d) := by
      intro d
      cases compat.isUpper d with
      | true => simp
      | false => simp [eq_comm]
    have hrest : (s.map fun d => if compat.isUpper d then compat.toLower d else d) = s.map compat.toLower ↔
        ∀ d ∈ s, compat.isUpper d = false → compat.toLower d = d := by
      rw [List.map_inj_left]
      exact forall₂_congr fun d _ => hletter d
    have hfirst : (∀ b ∈ (c :: s).head?, compat.toLower b = b) ↔ c = compat.toLower c := by
      rw [List.head?_cons, eq_comm]
      simp
    rw [lowerLoop_eq, List.map_cons, List.cons.injEq, hrest, LowersRest, hfirst, List.tail_cons]

/-- **A nickname is cleaned as it should be** if it is not lame, or `ToLower`
changes nothing that the loop does not come to. -/
theorem cleansUp_iff (hupper : ∀ c, compat.isUpper c = c.isUpper)
    (hlower : ∀ c, compat.isUpper (compat.toLower c) = false) {nick : CStr}
    (hlen : nick.length ≤ compat.nicklen) :
    CleansUp compat nick ↔ (Lame nick → LowersRest compat nick) := by
  rw [CleansUp]
  by_cases hlame : Lame nick
  · have hl : isNicknameLame compat nick = true := (isNicknameLame_iff hupper nick).mpr hlame
    have hcalm : isNicknameLame compat (nick.map compat.toLower) = false := not_lame_map hlower nick
    rw [if_pos hlame, forced_lame hlen hl, userStateChanged_calm hcalm, imp_iff_right hlame,
      ← lowerLoop_eq_iff]
    constructor
    · intro h
      obtain ⟨h, -⟩ := h
      split at h
      · exact absurd h (List.cons_ne_nil _ _).symm
      · exact List.singleton_inj.mp h
    · intro h
      rw [h, hcalm]
      exact ⟨rfl, rfl⟩
  · have hl : isNicknameLame compat nick = false := by
      rw [Bool.eq_false_iff]
      exact fun h => hlame ((isNicknameLame_iff hupper nick).mp h)
    rw [if_neg hlame, userStateChanged_calm hl]
    exact iff_of_true rfl fun h => absurd h hlame

end

/-- The ASCII letters, on a network whose nicknames have up to 31. -/
def ascii : Compat := ⟨Char.isUpper, Char.toLower, 31, "net"⟩

theorem cleansUp_nolame : CleansUp ascii "lAMENICK".toList :=
  (cleansUp_iff (fun _ => rfl) isUpper_toLower (by decide)).mpr fun _ => by
    have hfirst : "lAMENICK".toList.head? = some 'l' := rfl
    refine ⟨fun c hc => ?_, fun _ _ h => toLower_of_not_isUpper h⟩
    cases hfirst.symm.trans hc
    rfl

/-- The example of the module's own comment. -/
theorem lamenick_keeps_capital :
    forced (userStateChanged ascii (some ⟨"LaMENiCK".toList, false⟩)) = ["Lamenick".toList] ∧
      ¬ CleansUp ascii "LaMENiCK".toList := by
  unfold CleansUp
  decide

/-- What is left of two capitals is still too much. -/
example : forced (userStateChanged ascii (some ⟨"OK".toList, false⟩)) = [] := by decide

end NsCleannick
end AthemeContrib
