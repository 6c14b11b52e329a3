/-
# AJOIN DEL: one entry of the list

`DEL` looks for its parameter with a search that never goes back (`Lib/Search`)
and that knows nothing of the commas: it stops in the first entry that has the
parameter anywhere in it, behind false starts, and takes out what it has found
and the character behind. That is the entry itself exactly if what it found
ends the entry, and is all of it, or is what the next entry is (`Sole`).

Key definitions: `Meets`, `Holds`, `Sole`, `DelExact`.
Key theorems: `delLoop_skipped`, `delLoop_hit`, `ajoinDel_met`, `ajoinDel_unmet`, `del_exact_iff`.
-/
import AthemeContrib.Ajoin
import AthemeContrib.Lib.Joined
import AthemeContrib.Lib.Search

namespace AthemeContrib
namespace Ajoin

open CStr AthemeContrib.Joined Search

/-- The characters that the loop takes for one another. -/
def SameChar (c d : Char) : Prop := c.toLower = d.toLower

theorem strcasecmp_iff_forall {a b : CStr} : strcasecmp a b = true ↔ List.Forall₂ SameChar a b := by
  rw [strcasecmp_iff, ← List.forall₂_eq_eq_eq, List.forall₂_map_left_iff, List.forall₂_map_right_iff]
  rfl

theorem not_same_comma {x : CStr} (hx : ',' ∉ x) : ∀ d ∈ x, ¬ SameChar ',' d := by
  intro d hd h
  have hcomma : d.toLower = ',' := h.symm
  rw [toLower_eq_iff (by decide)] at hcomma
  rw [hcomma] at hd
  exact hx hd

/-! ### The loop -/

section Loop

variable {x : CStr}

/-- Once the item is found, the loop only counts. -/
theorem delLoop_found {rmlen : ℕ} (h : rmlen ≠ 0) (j itempos : ℕ) : ∀ (t : CStr) (i : ℕ),
    delLoop x t i j itempos rmlen = (itempos, rmlen, j)
  | [], _ => rfl
  | c :: t, i => by
    rw [delLoop, if_pos h]
    exact delLoop_found h j itempos t (i + 1)

/-- A character that the item goes on with. -/
theorem delLoop_char {v z : CStr} {c d : Char} (hx : x = v ++ d :: z) (hc : SameChar c d) (t : CStr)
    (i itempos : ℕ) : delLoop x (c :: t) i v.length itempos 0 =
      delLoop x t (i + 1) (v.length + 1) (if v.length = 0 then i else itempos)
        (if z = [] then v.length + 1 else 0) := by
  have hd : x[v.length]? = some d := by simp [hx]
  have hlen : x.length ≤ v.length + 1 ↔ z = [] := by
    rw [← List.length_eq_zero_iff, hx, List.length_append, List.length_cons]
    omega
  rw [delLoop, if_neg (by simp), hd, if_pos (by simpa [SameChar] using hc)]
  simp only [hlen]

/-- A character that it does not go on with. -/
theorem delLoop_wrong {v rest : CStr} {c d : Char} (hx : x = v ++ d :: rest) (hc : ¬ SameChar c d) (t : CStr)
    (i itempos : ℕ) : delLoop x (c :: t) i v.length itempos 0 = delLoop x t (i + 1) 0 itempos 0 := by
  have hd : x[v.length]? = some d := by simp [hx]
  rw [delLoop, if_neg (by simp), hd, if_neg (by simpa [SameChar] using hc)]

theorem delLoop_more {w v : CStr} (hw : List.Forall₂ SameChar w v) : ∀ {u : CStr} {d : Char} {rest : CStr},
    u ≠ [] → x = u ++ (v ++ d :: rest) → ∀ (t : CStr) (i itempos : ℕ),
      delLoop x (w ++ t) i u.length itempos 0 =
        delLoop x t (i + w.length) (u.length + w.length) itempos 0 := by
  induction hw with
  | nil => exact fun _ _ _ _ _ => rfl
  | @cons c b w v hc _ ih =>
    intro u d rest hu hx t i itempos
    have hne : v ++ d :: rest ≠ [] := by simp
    have hlen : u.length ≠ 0 := fun h => hu (List.length_eq_zero_iff.mp h)
    have hsplit : x = (u ++ [b]) ++ (v ++ d :: rest) := by simp [hx]
    have hnext := ih (by simp) hsplit t (i + 1) itempos
    rw [List.length_append, List.length_singleton] at hnext
    rw [List.cons_append, delLoop_char (by simpa using hx) hc, if_neg hne, if_neg hlen, hnext,
      List.length_cons]
    congr 1 <;> omega

/-- A start of the item; where it began is remembered. -/
theorem delLoop_start {w v rest : CStr} {d : Char} (hw : List.Forall₂ SameChar w v) (hx : x = v ++ d :: rest)
    (t : CStr) (i itempos : ℕ) : ∃ itempos', (w ≠ [] → itempos' = i) ∧
      delLoop x (w ++ t) i 0 itempos 0 = delLoop x t (i + w.length) w.length itempos' 0 := by
  cases hw with
  | nil => exact ⟨itempos, fun h => absurd rfl h, rfl⟩
  | @cons c b w v hc hw =>
    refine ⟨i, fun _ => rfl, ?_⟩
    have hne : v ++ d :: rest ≠ [] := by simp
    have hfirst := delLoop_char (v := []) (z := v ++ d :: rest) hx hc (w ++ t) i itempos
    have hmore := delLoop_more (u := [b]) hw (by simp) hx t (i + 1) i
    rw [List.length_nil, if_neg hne, if_pos rfl] at hfirst
    rw [List.length_singleton] at hmore
    rw [List.cons_append, hfirst, hmore, List.length_cons]
    congr 1 <;> omega

theorem delLoop_falseStart {s : CStr} (hs : FalseStart SameChar x s) (t : CStr) (i itempos : ℕ) :
    ∃ itempos', delLoop x (s ++ t) i 0 itempos 0 = delLoop x t (i + s.length) 0 itempos' 0 := by
  obtain ⟨w, c, v, d, rest, rfl, hx, hw, hc⟩ := hs
  obtain ⟨itempos', -, hstart⟩ := delLoop_start hw hx ([c] ++ t) i itempos
  have hwrong := delLoop_wrong hx hc t (i + w.length) itempos'
  rw [← hw.length_eq] at hwrong
  refine ⟨itempos', ?_⟩
  rw [List.append_assoc, hstart, List.singleton_append, hwrong, List.length_append, List.length_singleton,
    Nat.add_assoc]

/-- False starts are passed. -/
theorem delLoop_skipped {y : CStr} (hy : Skipped SameChar x y) : ∀ (t : CStr) (i itempos : ℕ),
    ∃ itempos', delLoop x (y ++ t) i 0 itempos 0 = delLoop x t (i + y.length) 0 itempos' 0 := by
  induction hy with
  | nil => exact fun t i itempos => ⟨itempos, rfl⟩
  | @append y s _ hs ih =>
    intro t i itempos
    obtain ⟨p, hp⟩ := ih (s ++ t) i itempos
    obtain ⟨p', hp'⟩ := delLoop_falseStart hs t (i + y.length) p
    exact ⟨p', by rw [List.append_assoc, hp, hp', List.length_append, Nat.add_assoc]⟩

/-- The rest of the item, behind some of it. -/
theorem delLoop_rest {w v : CStr} (hw : List.Forall₂ SameChar w v) : ∀ {u : CStr}, u ≠ [] → v ≠ [] →
    x = u ++ v → ∀ (t : CStr) (i itempos : ℕ),
      delLoop x (w ++ t) i u.length itempos 0 = (itempos, x.length, x.length) := by
  induction hw with
  | nil => exact fun _ h0 => absurd rfl h0
  | @cons c b w v hc _ ih =>
    intro u hu _ hx t i itempos
    have hlen : u.length ≠ 0 := fun h => hu (List.length_eq_zero_iff.mp h)
    rw [List.cons_append, delLoop_char hx hc, if_neg hlen]
    by_cases hv : v = []
    · have hend : u.length + 1 = x.length := by simp [hx, hv]
      rw [if_pos hv, hend, delLoop_found (by simp [hx])]
    · have hnext := ih (u := u ++ [b]) (by simp) hv (by simp [hx]) t (i + 1) itempos
      rw [List.length_append, List.length_singleton] at hnext
      rw [if_neg hv, hnext]

theorem delLoop_hit {x' : CStr} (h0 : x ≠ []) (hx' : List.Forall₂ SameChar x' x) (t : CStr) (i itempos : ℕ) :
    delLoop x (x' ++ t) i 0 itempos 0 = (i, x.length, x.length) := by
  cases hx' with
  | nil => exact absurd rfl h0
  | @cons c b w v hc hw =>
    have hfirst := delLoop_char (x := b :: v) (v := []) (z := v) rfl hc (w ++ t) i itempos
    rw [List.length_nil, if_pos rfl] at hfirst
    rw [List.cons_append, hfirst]
    by_cases hv : v = []
    · have hend : 0 + 1 = (b :: v).length := by simp [hv]
      rw [if_pos hv, hend, delLoop_found (by simp)]
    · have hnext := delLoop_rest (x := b :: v) (u := [b]) hw (by simp) hv rfl t (i + 1) i
      rw [if_neg hv]
      exact hnext

/-- The list ends in a start of the item. -/
theorem delLoop_begun {s : CStr} (hs : Begun SameChar x s) (i itempos : ℕ) :
    ∃ itempos' j, j < x.length ∧ delLoop x s i 0 itempos 0 = (itempos', 0, j) := by
  obtain ⟨v, d, rest, hx, hw⟩ := hs
  obtain ⟨itempos', -, hstart⟩ := delLoop_start hw hx [] i itempos
  have hlen := hw.length_eq
  refine ⟨itempos', s.length, by simp [hx]; omega, ?_⟩
  rw [List.append_nil] at hstart
  rw [hstart]
  rfl

end Loop

/-! ### The list -/

/-- The list of these entries. -/
def join (es : List CStr) : CStr := [','].intercalate es

/-- What is stored for these entries. -/
def stored (es : List CStr) : Option CStr := if es = [] then none else some (join es)

/-- `x` is first met in the entry behind `y`, in the spelling `x'`. -/
def Meets (x e y x' z : CStr) : Prop :=
  e = y ++ (x' ++ z) ∧ Skipped SameChar x y ∧ strcasecmp x' x = true

/-- Reading the entry, one meets `x`. -/
def Holds (x e : CStr) : Prop := ∃ y x' z, Meets x e y x' z

theorem holds_of_equal {x e : CStr} (h : strcasecmp e x = true) : Holds x e :=
  ⟨[], e, [], by simp, Skipped.nil, h⟩

section Delete

variable {x : CStr} {pre post : List CStr} {e y x' z : CStr}

/-- An entry without the item ends in a start of it. -/
theorem begun_of_not_holds (h0 : x ≠ []) (h : ¬ Holds x e) :
    ∃ y s, e = y ++ s ∧ Skipped SameChar x y ∧ Begun SameChar x s := by
  obtain ⟨y, s, he, hy, ⟨x', z, hs, hx'⟩ | hs⟩ := exists_skipped (r := SameChar) h0 e
  · exact absurd ⟨y, x', z, by rw [he, hs], hy, strcasecmp_iff_forall.mpr hx'⟩ h
  · exact ⟨y, s, he, hy, hs⟩

/-- The comma behind it makes that a false start. -/
theorem skipped_lead (h0 : x ≠ []) (hx : ',' ∉ x) (h : ∀ f ∈ pre, ¬ Holds x f) :
    Skipped SameChar x (lead ',' pre) := by
  induction pre with
  | nil => exact Skipped.nil
  | cons f pre ih =>
    obtain ⟨y, s, hf, hy, hs⟩ := begun_of_not_holds h0 (h f (by simp))
    have hpiece : Skipped SameChar x (y ++ (s ++ [','])) := hy.append (hs.falseStart (not_same_comma hx))
    have hlead : lead ',' (f :: pre) = y ++ (s ++ [',']) ++ lead ',' pre := by
      rw [lead_cons, hf]
      simp
    rw [hlead]
    exact hpiece.trans (ih fun g hg => h g (by simp [hg]))

/-- The list, cut open where the item is met. -/
theorem join_met (pre post : List CStr) (y x' z : CStr) :
    join (pre ++ (y ++ (x' ++ z)) :: post) = (lead ',' pre ++ y) ++ (x' ++ (z ++ trail ',' post)) := by
  rw [join, intercalate_split]
  simp

/-- Where the loop stops in the list. -/
theorem delLoop_met (h0 : x ≠ []) (hx : ',' ∉ x) (hpre : ∀ f ∈ pre, ¬ Holds x f) (h : Meets x e y x' z) :
    delLoop x (join (pre ++ e :: post)) 0 0 0 0 = ((lead ',' pre ++ y).length, x.length, x.length) := by
  obtain ⟨rfl, hy, hx'⟩ := h
  obtain ⟨itempos, hskip⟩ :=
    delLoop_skipped ((skipped_lead h0 hx hpre).trans hy) (x' ++ (z ++ trail ',' post)) 0 0
  rw [join_met, hskip, delLoop_hit h0 (strcasecmp_iff_forall.mp hx'), Nat.zero_add]

theorem delLoop_unmet {es : List CStr} (h0 : x ≠ []) (hx : ',' ∉ x) (h : ∀ f ∈ es, ¬ Holds x f) :
    ∃ itempos j, j < x.length ∧ delLoop x (join es) 0 0 0 0 = (itempos, 0, j) := by
  rcases List.eq_nil_or_concat' es with rfl | ⟨pre, e, rfl⟩
  · exact ⟨0, 0, List.length_pos_iff.mpr h0, rfl⟩
  · simp only [List.mem_append, List.mem_singleton] at h
    obtain ⟨y, s, he, hy, hs⟩ := begun_of_not_holds h0 (h e (Or.inr rfl))
    have hlead := skipped_lead h0 hx fun f hf => h f (Or.inl hf)
    obtain ⟨p, hskip⟩ := delLoop_skipped (hlead.trans hy) s 0 0
    obtain ⟨p', j, hj, hend⟩ := delLoop_begun hs (0 + (lead ',' pre ++ y).length) p
    have hlist : join (pre ++ [e]) = (lead ',' pre ++ y) ++ s := by
      rw [join, intercalate_split, he]
      simp
    exact ⟨p', j, hj, by rw [hlist, hskip, hend]⟩

/-- What is left when `b` is taken out, with the character behind it, or, where
there is none, with the one in front. -/
theorem delItem_eq (a b c : CStr) : delItem (a ++ (b ++ c)) a.length b.length =
    if c = [] then if a = [] then none else some a.dropLast else some (a ++ c.tail) := by
  have hend : (a ++ (b ++ c)).length ≤ a.length + b.length ↔ c = [] := by
    rw [← List.length_eq_zero_iff, List.length_append, List.length_append]
    omega
  unfold delItem
  simp only [hend]
  by_cases hc : c = []
  · rw [if_pos hc, if_pos hc]
    by_cases ha : a = []
    · rw [if_neg (by simp [ha]), if_pos ha]
    · have hpos : 0 < a.length := List.length_pos_iff.mpr ha
      rw [if_pos hpos, if_neg ha, List.take_append_of_le_length (by omega), List.dropLast_eq_take]
  · have hdrop : (a ++ (b ++ c)).drop (a.length + (b.length + 1)) = c.tail := by
      rw [List.drop_append, List.drop_append, ← List.drop_one]
      have h1 : a.drop (a.length + (b.length + 1)) = [] := List.drop_eq_nil_of_le (by omega)
      have h2 : b.drop (a.length + (b.length + 1) - a.length) = [] := List.drop_eq_nil_of_le (by omega)
      rw [h1, h2, List.nil_append, List.nil_append]
      congr 1
      omega
    rw [if_neg hc, if_neg hc, List.take_left, hdrop]

/-- **The item is met**: what is found is taken out, and `DEL` succeeds. -/
theorem ajoinDel_met (h0 : x ≠ []) (hx : ',' ∉ x) (hpre : ∀ f ∈ pre, ¬ Holds x f) (h : Meets x e y x' z) :
    ajoinDel x (some (join (pre ++ e :: post))) =
      (if z ++ trail ',' post = [] then
          if lead ',' pre ++ y = [] then none else some (lead ',' pre ++ y).dropLast
        else some (lead ',' pre ++ y ++ (z ++ trail ',' post).tail), [.success (removedText x)]) := by
  have hfound : delLoop x (join (pre ++ e :: post)) 0 0 0 0 =
      ((lead ',' pre ++ y).length, x.length, x.length) := delLoop_met h0 hx hpre h
  obtain ⟨rfl, hy, hx'⟩ := h
  have hlen : x.length = x'.length := (strcasecmp_length hx').symm
  unfold ajoinDel
  simp only [hfound, if_neg (Nat.lt_irrefl _)]
  rw [join_met, hlen, delItem_eq]

/-- **It is not met**: nothing is changed, and `DEL` says so. -/
theorem ajoinDel_unmet {es : List CStr} (h0 : x ≠ []) (hx : ',' ∉ x) (h : ∀ f ∈ es, ¬ Holds x f) :
    ajoinDel x (some (join es)) = (some (join es), [.fail .badparams (notOnListText x)]) := by
  obtain ⟨itempos, j, hj, hloop⟩ := delLoop_unmet h0 hx h
  unfold ajoinDel
  simp only [hloop, if_pos hj]

end Delete

/-! ### The entry that is named -/

/-- Names that can be told apart in a list. -/
structure Names (es : List CStr) : Prop where
  entry : ∀ e ∈ es, e ≠ [] ∧ ',' ∉ e
  distinct : es.Pairwise fun a b => strcasecmp a b = false

/-- `DEL x` takes out the entry that is `x`, and only it, or there is none and
it fails. -/
def DelExact (x : CStr) (es : List CStr) : Prop :=
  let r := nsCmdAjoin (some "DEL".toList) (some x) (some (join es))
  (.success (removedText x) ∈ r.2 ↔ ∃ e ∈ es, strcasecmp e x = true) ∧
    r.1 = if es.any (strcasecmp · x) then stored (es.filter fun e => !strcasecmp e x) else some (join es)

/-- The first entry that `x` is met in ends there, and is no more than `x`
or is in front of an entry that is spelt like its end. -/
def Sole (x : CStr) (es : List CStr) : Prop :=
  ∀ pre e post y x' z, es = pre ++ e :: post → (∀ f ∈ pre, ¬ Holds x f) → Meets x e y x' z →
    z = [] ∧ (y = [] ∨ post.head? = some x')

section Exact

variable {x : CStr}

theorem filter_others {pre post : List CStr} {e : CStr} (h : Names (pre ++ e :: post))
    (he : strcasecmp e x = true) : (pre ++ e :: post).filter (fun f => !strcasecmp f x) = pre ++ post := by
  have hother : ∀ f, strcasecmp f e = false → (!strcasecmp f x) = true := by
    intro f hf
    rw [Bool.not_eq_true']
    by_contra hfx
    rw [Bool.not_eq_false, strcasecmp_iff] at hfx
    have hfe : strcasecmp f e = true := strcasecmp_iff.mpr (hfx.trans (strcasecmp_iff.mp he).symm)
    rw [hfe] at hf
    cases hf
  obtain ⟨-, htail, hcross⟩ := List.pairwise_append.mp h.distinct
  have hpre : pre.filter (fun f => !strcasecmp f x) = pre :=
    List.filter_eq_self.mpr fun f hf => hother f (hcross f hf e (by simp))
  have hpost : post.filter (fun f => !strcasecmp f x) = post := by
    refine List.filter_eq_self.mpr fun f hf => hother f ?_
    rw [strcasecmp_comm]
    exact List.rel_of_pairwise_cons htail hf
  rw [List.filter_append, List.filter_cons_of_neg (by simp [he]), hpre, hpost]

theorem without_entry (pre post : List CStr) :
    (if trail ',' post = [] then if lead ',' pre = [] then none else some (lead ',' pre).dropLast
      else some (lead ',' pre ++ (trail ',' post).tail)) = stored (pre ++ post) := by
  cases post with
  | nil =>
    rw [if_pos trail_nil, List.append_nil, stored]
    by_cases hpre : pre = []
    · rw [if_pos (lead_eq_nil.mpr hpre), if_pos hpre]
    · rw [if_neg (mt lead_eq_nil.mp hpre), if_neg hpre, lead_eq hpre, List.dropLast_concat]
      rfl
  | cons f post =>
    rw [if_neg (mt trail_eq_nil.mp (by simp)), trail_cons, List.tail_cons, stored, if_neg (by simp), join,
      intercalate_split]

theorem exists_first (x : CStr) (es : List CStr) : (∀ e ∈ es, ¬ Holds x e) ∨
    ∃ pre e post, es = pre ++ e :: post ∧ (∀ f ∈ pre, ¬ Holds x f) ∧ Holds x e := by
  induction es with
  | nil => exact Or.inl fun e he => by cases he
  | cons f es ih =>
    by_cases hf : Holds x f
    · exact Or.inr ⟨[], f, es, rfl, fun g hg => (by cases hg), hf⟩
    · rcases ih with hnone | ⟨pre, e, post, rfl, hpre, he⟩
      · refine Or.inl fun e he => ?_
        rcases List.mem_cons.mp he with rfl | he
        · exact hf
        · exact hnone e he
      · refine Or.inr ⟨f :: pre, e, post, rfl, fun g hg => ?_, he⟩
        rcases List.mem_cons.mp hg with rfl | hg
        · exact hf
        · exact hpre g hg

theorem delExact_iff_ajoinDel {es : List CStr} : DelExact x es ↔
    (.success (removedText x) ∈ (ajoinDel x (some (join es))).2 ↔ ∃ e ∈ es, strcasecmp e x = true) ∧
    (ajoinDel x (some (join es))).1 =
      if es.any (strcasecmp · x) then stored (es.filter fun e => !strcasecmp e x) else some (join es) :=
  Iff.rfl

/-- If `x` is met nowhere, nothing is removed, and nothing should be. -/
theorem exact_unmet {es : List CStr} (h0 : x ≠ []) (hx : ',' ∉ x) (h : ∀ e ∈ es, ¬ Holds x e) :
    DelExact x es := by
  have hnone : ∀ e ∈ es, ¬ strcasecmp e x = true := fun e he heq => h e he (holds_of_equal heq)
  have hany : ¬ es.any (strcasecmp · x) = true := by
    rw [List.any_eq_true]
    exact fun ⟨e, he, heq⟩ => hnone e he heq
  rw [delExact_iff_ajoinDel, ajoinDel_unmet h0 hx h, if_neg hany]
  exact ⟨iff_of_false (by simp) fun ⟨e, he, heq⟩ => hnone e he heq, rfl⟩

variable {pre post : List CStr} {e y x' z : CStr}

/-- Where `x` is met, exactness is about the string that is left. -/
theorem exact_met_iff (h0 : x ≠ []) (hx : ',' ∉ x) (hpre : ∀ f ∈ pre, ¬ Holds x f) (h : Meets x e y x' z) :
    DelExact x (pre ++ e :: post) ↔ ∃ f ∈ pre ++ e :: post, strcasecmp f x = true ∧
      (if z ++ trail ',' post = [] then
          if lead ',' pre ++ y = [] then none else some (lead ',' pre ++ y).dropLast
        else some (lead ',' pre ++ y ++ (z ++ trail ',' post).tail)) =
      stored ((pre ++ e :: post).filter fun f => !strcasecmp f x) := by
  rw [delExact_iff_ajoinDel, ajoinDel_met h0 hx hpre h]
  constructor
  · intro ⟨hsucc, hvalue⟩
    obtain ⟨f, hf, hfx⟩ := hsucc.mp (by simp)
    have hany : (pre ++ e :: post).any (strcasecmp · x) = true := List.any_eq_true.mpr ⟨f, hf, hfx⟩
    rw [if_pos hany] at hvalue
    exact ⟨f, hf, hfx, hvalue⟩
  · intro ⟨f, hf, hfx, hvalue⟩
    have hany : (pre ++ e :: post).any (strcasecmp · x) = true := List.any_eq_true.mpr ⟨f, hf, hfx⟩
    rw [if_pos hany]
    exact ⟨iff_of_true (by simp) ⟨f, hf, hfx⟩, hvalue⟩

/-- What is met is the entry that is `x`. -/
theorem exact_of_entry (hes : Names (pre ++ e :: post)) (h0 : x ≠ []) (hx : ',' ∉ x)
    (hpre : ∀ f ∈ pre, ¬ Holds x f) (h : Meets x e [] x' []) : DelExact x (pre ++ e :: post) := by
  have hex : strcasecmp e x = true := by
    obtain ⟨he, -, hx'⟩ := h
    rwa [he, List.nil_append, List.append_nil]
  rw [exact_met_iff h0 hx hpre h, filter_others hes hex]
  refine ⟨e, by simp, hex, ?_⟩
  rw [← without_entry pre post, List.nil_append, List.append_nil]

theorem exact_of_next (hes : Names (pre ++ e :: x' :: post)) (h0 : x ≠ []) (hx : ',' ∉ x)
    (hpre : ∀ f ∈ pre, ¬ Holds x f) (h : Meets x e y x' []) : DelExact x (pre ++ e :: x' :: post) := by
  obtain ⟨he, -, hx'⟩ := id h
  have hsplit : pre ++ e :: x' :: post = (pre ++ [e]) ++ x' :: post := by simp
  have hfilter : (pre ++ e :: x' :: post).filter (fun f => !strcasecmp f x) = pre ++ e :: post := by
    rw [hsplit] at hes ⊢
    rw [filter_others hes hx']
    simp
  rw [exact_met_iff h0 hx hpre h, hfilter]
  refine ⟨x', by simp, hx', ?_⟩
  rw [List.nil_append, if_neg (mt trail_eq_nil.mp (by simp)), trail_cons, List.tail_cons, stored,
    if_neg (by simp), join, intercalate_split, he, List.append_nil]
  simp

/-- If what is left is right, what was met ends its entry, and is all of it or
what the next one is. -/
theorem sole_of_exact (hes : Names (pre ++ e :: post)) (h0 : x ≠ []) (hx : ',' ∉ x)
    (hpre : ∀ f ∈ pre, ¬ Holds x f) (h : Meets x e y x' z) (hexact : DelExact x (pre ++ e :: post)) :
    z = [] ∧ (y = [] ∨ post.head? = some x') := by
  obtain ⟨f, hf, hfx, hvalue⟩ := (exact_met_iff h0 hx hpre h).mp hexact
  obtain ⟨he, -, hx'⟩ := h
  have hcomma : ∀ g ∈ pre ++ e :: post, ',' ∉ g := fun g hg => (hes.entry g hg).2
  rcases List.mem_append.mp hf with hf | hf
  · exact absurd (holds_of_equal hfx) (hpre f hf)
  rcases List.mem_cons.mp hf with rfl | hf
  · -- `y ++ x' ++ z` is as long as `x'`
    have hlen : f.length = x'.length := (strcasecmp_length hfx).trans (strcasecmp_length hx').symm
    rw [he, List.length_append, List.length_append] at hlen
    exact ⟨List.length_eq_zero_iff.mp (by omega), Or.inl (List.length_eq_zero_iff.mp (by omega))⟩
  · obtain ⟨p, q, rfl⟩ := List.append_of_mem hf
    have hsplit : pre ++ e :: (p ++ f :: q) = (pre ++ e :: p) ++ f :: q := by simp
    have hfilter : (pre ++ e :: (p ++ f :: q)).filter (fun g => !strcasecmp g x) = pre ++ e :: (p ++ q) := by
      rw [hsplit] at hes ⊢
      rw [filter_others hes hfx]
      simp
    have hbehind : z ++ trail ',' (p ++ f :: q) ≠ [] := by
      intro hnil
      have := trail_eq_nil.mp (List.append_eq_nil_iff.mp hnil).2
      simp at this
    rw [hfilter, if_neg hbehind, stored, if_neg (by simp), join, intercalate_split, Option.some.injEq, he,
      List.append_assoc, List.append_assoc, List.append_cancel_left_eq, List.append_cancel_left_eq,
      List.append_assoc] at hvalue
    have he' : ',' ∉ y ++ (x' ++ z) := he ▸ hcomma e (by simp)
    simp only [List.mem_append, not_or] at he'
    obtain ⟨-, hx'comma, hzcomma⟩ := he'
    cases z with
    | nil =>
      obtain ⟨g, post, hpost⟩ := List.exists_cons_of_ne_nil (l := p ++ f :: q) (by simp)
      rw [hpost, List.nil_append, trail_cons, List.tail_cons, List.nil_append] at hvalue
      have hg : ',' ∉ g := hcomma g (by simp [hpost])
      have hgx : g = x' := trail_inj_head hg hx'comma hvalue
      exact ⟨rfl, Or.inr (by rw [hpost, hgx, List.head?_cons])⟩
    | cons c z =>
      -- one comma too many is left
      have hz : z.count ',' = 0 := List.count_eq_zero.mpr fun hc => hzcomma (by simp [hc])
      have hcz : (c :: z).count ',' = 0 := List.count_eq_zero.mpr hzcomma
      have hx'0 : x'.count ',' = 0 := List.count_eq_zero.mpr hx'comma
      have hleft : (trail ',' (p ++ f :: q)).count ',' = (p ++ f :: q).length :=
        count_trail fun g hg => hcomma g (List.mem_append_right _ (List.mem_cons_of_mem _ hg))
      have hright : (trail ',' (p ++ q)).count ',' = (p ++ q).length := by
        refine count_trail fun g hg => hcomma g (List.mem_append_right _ (List.mem_cons_of_mem _ ?_))
        simp only [List.mem_append, List.mem_cons] at hg ⊢
        tauto
      have hcount := congrArg (List.count ',') hvalue
      rw [List.cons_append, List.tail_cons, List.count_append, List.count_append, List.count_append, hz, hcz,
        hx'0, hleft, hright] at hcount
      simp only [List.length_append, List.length_cons] at hcount
      omega

end Exact

/-- **`AJOIN DEL x` removes exactly the entry that is `x`** if and only if the
first entry that `x` is met in ends there, and is `x` or is followed by an
entry spelt like its end. -/
theorem del_exact_iff {x : CStr} {es : List CStr} (hes : Names es) (h0 : x ≠ []) (hx : ',' ∉ x) :
    DelExact x es ↔ Sole x es := by
  constructor
  · rintro hexact pre e post y x' z rfl hpre h
    exact sole_of_exact hes h0 hx hpre h hexact
  · intro hsole
    rcases exists_first x es with hnone | ⟨pre, e, post, rfl, hpre, y, x', z, h⟩
    · exact exact_unmet h0 hx hnone
    · obtain ⟨rfl, rfl | hnext⟩ := hsole pre e post y x' z rfl hpre h
      · exact exact_of_entry hes h0 hx hpre h
      · obtain ⟨post, rfl⟩ : ∃ post', post = x' :: post' := List.head?_eq_some_iff.mp hnext
        exact exact_of_next hes h0 hx hpre h

theorem del_exact_b : DelExact "#B".toList ["#a".toList, "#b".toList] ∧
    (DelExact "#B".toList ["#a".toList, "#b".toList] ↔ Sole "#B".toList ["#a".toList, "#b".toList]) :=
  ⟨⟨by decide, by decide⟩, del_exact_iff ⟨by decide, by decide⟩ (by decide) (by decide)⟩

/-- `DEL #a` from the list `#ab,#a`: `#ab` is destroyed and the list starts
with a comma. -/
theorem longer_entry_cut : Names ["#ab".toList, "#a".toList] ∧
    nsCmdAjoin (some "DEL".toList) (some "#a".toList) (some (join ["#ab".toList, "#a".toList])) =
      (some ",#a".toList, [.success "#a removed from AJOIN successfully."]) ∧
    ¬ DelExact "#a".toList ["#ab".toList, "#a".toList] := by
  have hrun : nsCmdAjoin (some "DEL".toList) (some "#a".toList) (some (join ["#ab".toList, "#a".toList])) =
      (some ",#a".toList, [.success "#a removed from AJOIN successfully."]) := by decide
  refine ⟨⟨by decide, by decide⟩, hrun, fun h => ?_⟩
  have hvalue := h.2
  rw [hrun] at hvalue
  exact absurd hvalue (by decide)

end Ajoin
end AthemeContrib
