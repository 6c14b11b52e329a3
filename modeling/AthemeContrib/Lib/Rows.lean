/-
# A database of typed rows

A row has a type and fields: words, times, and a text that comes last. How the
fields stand in the file, and how they are read off it again, is the backend's to
say; `Backend` asks of it that a field which was written is read back, and nothing of
what it makes of anything else, but that a reader that fails ends the load (and the
program with it), which is the reader's `none`. One that keeps the fields of a row
apart by blanks only is `Separated`: it does not tell a word with a blank in it from
two words.

A row is handed to the handler its type is registered for.

Key definitions: `Row`, `Backend`, `RowReader`, `entryRow`, `sreadEntry`, `Handlers`,
`loadRow`, `load`, `Backend.Separated`, `plain`.
Key theorems: `Backend.word_bind`, `Backend.time_bind`, `Backend.str_bind`, `sreadEntry_bind`,
`load_inv`, `load_map`, `Backend.Separated.read`.
-/
import AthemeContrib.Lib.CString
import AthemeContrib.Lib.Lines

namespace AthemeContrib
namespace Rows

open CStr

/-! ### Writing -/

/-- What is written into a row. -/
inductive Field
  | word (w : CStr)
  | time (t : ℕ)
  | str (s : CStr)
deriving DecidableEq, Repr

structure Row where
  type : CStr
  fields : List Field
deriving DecidableEq, Repr

/-- `db_start_row(db, type)` -/
def startRow (type : CStr) : Row := ⟨type, []⟩

def Row.put (row : Row) (f : Field) : Row := { row with fields := row.fields ++ [f] }

/-- `db_write_word(db, word)` -/
def writeWord (row : Row) (word : CStr) : Row := row.put (.word word)

/-- `db_write_time(db, time)` -/
def writeTime (row : Row) (time : ℕ) : Row := row.put (.time time)

/-- `db_write_str(db, str)` -/
def writeStr (row : Row) (str : CStr) : Row := row.put (.str str)

/-- The row of an entry that has a name, a time, a creator and a text. -/
def entryRow (type name : CStr) (ts : ℕ) (creator text : CStr) : Row :=
  let row := startRow type
  let row := writeWord row name
  let row := writeTime row ts
  let row := writeWord row creator
  writeStr row text

/-! ### Reading -/

/-- A database backend: the text that the fields of a row are in the file, and
`db_sread_word(db)`, `db_sread_time(db)` and `db_sread_str(db)`, which take a field off
the front of it. `skips` says whether a row of a type that nobody registered is passed
over, or ends the load. -/
structure Backend where
  Text : Type
  text : List Field → Text
  sreadWord : StateT Text Option CStr
  sreadTime : StateT Text Option ℕ
  sreadStr : StateT Text Option CStr
  skips : Bool
  word : ∀ {w : CStr}, Word w → ∀ fs, sreadWord (text (.word w :: fs)) = some (w, text fs)
  time : ∀ (t : ℕ) fs, sreadTime (text (.time t :: fs)) = some (t, text fs)
  str : ∀ {s : CStr}, s ≠ [] → sreadStr (text [.str s]) = some (s, text [])

/-- What reads fields off a row. -/
abbrev RowReader (B : Backend) := StateT B.Text Option

/-- The handlers of the row types: each reads a row into the state. -/
abbrev Handlers (B : Backend) (σ : Type) := List (CStr × (σ → RowReader B σ))

variable {B : Backend} {σ : Type}

/-- One row is loaded. -/
def loadRow (hs : Handlers B σ) (s : σ) (row : Row) : Option σ :=
  match hs.lookup row.type with
  | none => if B.skips then some s else none
  | some h => (h s (B.text row.fields)).map Prod.fst

/-- The rows are loaded one after another. -/
def load (hs : Handlers B σ) : σ → List Row → Option σ
  | s, [] => some s
  | s, row :: rows => (loadRow hs s row).bind fun s' => load hs s' rows

/-- The fields of the row of an entry. -/
def sreadEntry : RowReader B (CStr × ℕ × CStr × CStr) := do
  let name ← B.sreadWord
  let ts ← B.sreadTime
  let creator ← B.sreadWord
  let text ← B.sreadStr
  return (name, ts, creator, text)

section Reading

variable {α β : Type} {fs : List Field}

/-- A reader goes on with what its first part has read. -/
theorem bind_of_read {r : RowReader B α} {t rest : B.Text} {x : α} (h : r t = some (x, rest))
    (k : α → RowReader B β) : (r >>= k) t = k x rest := by
  simp only [bind, StateT.bind, h, Option.bind_some]

theorem Backend.word_bind {w : CStr} (hw : Word w) (k : CStr → RowReader B β) :
    (B.sreadWord >>= k) (B.text (.word w :: fs)) = k w (B.text fs) := bind_of_read (B.word hw fs) k

theorem Backend.time_bind (t : ℕ) (k : ℕ → RowReader B β) :
    (B.sreadTime >>= k) (B.text (.time t :: fs)) = k t (B.text fs) := bind_of_read (B.time t fs) k

theorem Backend.str_bind {s : CStr} (h0 : s ≠ []) (k : CStr → RowReader B β) :
    (B.sreadStr >>= k) (B.text [.str s]) = k s (B.text []) := bind_of_read (B.str h0) k

theorem sreadEntry_bind {name creator text : CStr} (hname : Word name) (hcreator : Word creator)
    (htext : text ≠ []) (type : CStr) (ts : ℕ) (k : CStr × ℕ × CStr × CStr → RowReader B β) :
    (sreadEntry >>= k) (B.text (entryRow type name ts creator text).fields) =
      k (name, ts, creator, text) (B.text []) := by
  have hread : sreadEntry (B.text [.word name, .time ts, .word creator, .str text]) =
      some ((name, ts, creator, text), B.text []) := by
    rw [sreadEntry, B.word_bind hname, B.time_bind, B.word_bind hcreator, B.str_bind htext]
    rfl
  exact bind_of_read hread k

end Reading

/-! ### Loading -/

theorem loadRow_of_type {hs : Handlers B σ} {row : Row} {h : σ → RowReader B σ}
    (hh : hs.lookup row.type = some h) (s : σ) :
    loadRow hs s row = (h s (B.text row.fields)).map Prod.fst := by
  simp only [loadRow, hh]

theorem load_append {hs : Handlers B σ} : ∀ {rows : List Row} (rows' : List Row) (s : σ),
    load hs s (rows ++ rows') = (load hs s rows).bind fun s' => load hs s' rows'
  | [], _, _ => rfl
  | row :: rows, rows', s => by
    rw [List.cons_append, load, load, Option.bind_assoc]
    exact Option.bind_congr fun s' _ => load_append rows' s'

/-- The rows of a table are loaded entry by entry. -/
theorem load_map {α : Type} {hs : Handlers B σ} {row : α → Row} {add : σ → α → σ} : ∀ {l : List α} {s : σ},
    (∀ a ∈ l, ∀ s, loadRow hs s (row a) = some (add s a)) → load hs s (l.map row) = some (l.foldl add s)
  | [], _, _ => rfl
  | a :: l, s, h => by
    rw [List.map_cons, load, h a (by simp) s, Option.bind_some, List.foldl_cons]
    exact load_map fun b hb => h b (List.mem_cons_of_mem a hb)

/-- What every row of a load keeps, the load keeps. -/
theorem load_inv {hs : Handlers B σ} {I : σ → Prop} : ∀ {rows : List Row} {s s' : σ},
    (∀ row ∈ rows, ∀ t t', I t → loadRow hs t row = some t' → I t') → I s → load hs s rows = some s' → I s'
  | [], _, _, _, hs, h => by
    cases h
    exact hs
  | row :: rows, s, s', hrow, hs, h => by
    rw [load, Option.bind_eq_some_iff] at h
    obtain ⟨t, ht, h⟩ := h
    exact load_inv (fun r hr => hrow r (by simp [hr])) (hrow row (by simp) s t hs ht) h

/-! ### Fields with blanks in them -/

/-- Blanks are all that keeps the fields of a row apart: a word with a blank in it is
two, an empty one is none, and where no field is left there is none to read. -/
structure Backend.Separated (B : Backend) : Prop where
  split : ∀ pre (a b : CStr) fs,
    B.text (pre ++ .word (a ++ ' ' :: b) :: fs) = B.text (pre ++ .word a :: .word b :: fs)
  empty : ∀ fs, B.sreadWord (B.text (.word [] :: fs)) = B.sreadWord (B.text fs)
  last : B.sreadWord (B.text []) = none

def Field.text : Field → CStr
  | .word w => w ++ [' ']
  | .time t => Nat.toDigits 10 t ++ [' ']
  | .str s => s

/-- A word is what `strtok` takes up to the next blank. -/
def plainWord : StateT CStr Option CStr := fun row =>
  match strtok none [' '] row with
  | (none, _) => none
  | (some w, rest) => some (w, rest)

theorem plainWord_word {w : CStr} (hw : Word w) (rest : CStr) : plainWord (w ++ ' ' :: rest) = some (w, rest) := by
  have h := strtok_first (b := []) blank_nil hw.1 hw.2 rest
  rw [List.nil_append] at h
  simp only [plainWord, h]

/-- The backend that writes a blank behind each field and reads up to the next one; a
time that is no number ends the load. -/
def plain : Backend where
  Text := CStr
  text fs := fs.flatMap Field.text
  sreadWord := plainWord
  sreadTime := do
    let w ← plainWord
    if w.all isdigit then pure (digits w) else failure
  sreadStr row := if row = [] then none else some (row, [])
  skips := true
  word hw fs := by
    have h := plainWord_word hw (fs.flatMap Field.text)
    simpa [Field.text] using h
  time t fs := by
    have h := plainWord_word (toDigits_word t) (fs.flatMap Field.text)
    have hall : (Nat.toDigits 10 t).all isdigit = true := List.all_eq_true.mpr fun c hc => isdigit_toDigits hc
    have hrow : (Field.time t :: fs).flatMap Field.text = Nat.toDigits 10 t ++ ' ' :: fs.flatMap Field.text := by
      simp [Field.text]
    simp only [bind, StateT.bind, hrow, h, Option.bind_some, hall, if_true, digits_toDigits]
    rfl
  str h0 := by
    rw [List.flatMap_singleton]
    exact if_neg h0

end Rows
end AthemeContrib
