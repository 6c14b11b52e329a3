/-
# Graphs in the DOT language

The part of DOT that programs write for Graphviz: an undirected graph, whose
statements are nodes, edges and default attributes, with names in quotes. It is
read by two machines one after the other, from characters to tokens and from
tokens to statements. A machine puts out a list for each input, so what it makes
of a text is put together from what it makes of the parts (`run_trans`,
`run_flatMap`).

In quotes the backslash escapes a quote and joins lines, and is itself otherwise:
a name that is written between quotes as it is reads back if it is `Plain`
(`lex_quote`). Comments, ports, subgraphs and HTML strings are not read.

Key definitions: `run`, `Token`, `lexStep`, `parseStep`, `read`, `Plain`, `quote`.
Key theorems: `run_append`, `run_flatMap`, `lex_quote`, `read_of_lex`.
-/
import AthemeContrib.Lib.CString

namespace AthemeContrib
namespace Dot

open CStr

/-! ### Machines that put out lists -/

variable {μ α β γ : Type*}

/-- The mode in which the machine ends, and all that it puts out. -/
def run (step : μ → α → μ × List β) : μ → List α → μ × List β
  | m, [] => (m, [])
  | m, a :: as =>
    let r := step m a
    let r' := run step r.1 as
    (r'.1, r.2 ++ r'.2)

variable {step : μ → α → μ × List β}

theorem run_cons (m : μ) (a : α) (as : List α) :
    run step m (a :: as) = ((run step (step m a).1 as).1, (step m a).2 ++ (run step (step m a).1 as).2) := rfl

theorem run_append (m : μ) (as as' : List α) :
    run step m (as ++ as') =
      ((run step (run step m as).1 as').1, (run step m as).2 ++ (run step (run step m as).1 as').2) := by
  induction as generalizing m with
  | nil => rfl
  | cons a as ih => rw [List.cons_append, run_cons, ih, run_cons, List.append_assoc]

/-- One part after another. -/
theorem run_trans {m m' m'' : μ} {as as' : List α} {bs bs' : List β} (h : run step m as = (m', bs))
    (h' : run step m' as' = (m'', bs')) : run step m (as ++ as') = (m'', bs ++ bs') := by
  rw [run_append, h, h']

/-- Parts that each end in the mode they begin in. -/
theorem run_flatMap {m : μ} {f : γ → List α} {g : γ → List β} (xs : List γ)
    (h : ∀ x ∈ xs, run step m (f x) = (m, g x)) : run step m (xs.flatMap f) = (m, xs.flatMap g) := by
  induction xs with
  | nil => rfl
  | cons x xs ih =>
    rw [List.flatMap_cons, List.flatMap_cons]
    exact run_trans (h x List.mem_cons_self) (ih fun y hy => h y (List.mem_cons_of_mem x hy))

/-! ### Tokens -/

inductive Token
  | quoted (s : CStr)
  | word (s : CStr)
  | edgeop
  | punct (c : Char)
deriving DecidableEq, Repr

/-- Where the reader of characters is: between tokens, in quotes, behind a
backslash in quotes, in a word, or behind a `-`. -/
inductive Mode
  | out
  | quoted (read : CStr)
  | escaped (read : CStr)
  | word (read : CStr)
  | dash
  | bad
deriving DecidableEq, Repr

def wordChar (c : Char) : Bool := isalnum c || c = '_' || c = '.'

/-- A character between tokens. -/
def lexOut (c : Char) : Mode × List Token :=
  if isspace c then (.out, [])
  else if c = '"' then (.quoted [], [])
  else if c = '-' then (.dash, [])
  else if wordChar c then (.word [c], [])
  else if c ∈ ['\x7b', '\x7d', '[', ']', '=', ';', ','] then (.out, [.punct c])
  else (.bad, [])

def lexStep : Mode → Char → Mode × List Token
  | .out, c => lexOut c
  | .quoted s, c =>
    if c = '"' then (.out, [.quoted s])
    else if c = '\\' then (.escaped s, [])
    else (.quoted (s ++ [c]), [])
  | .escaped s, c =>
    if c = '"' then (.quoted (s ++ ['"']), [])
    else if c = '\n' then (.quoted s, [])
    else (.quoted (s ++ ['\\', c]), [])
  | .word s, c => if wordChar c then (.word (s ++ [c]), []) else ((lexOut c).1, .word s :: (lexOut c).2)
  | .dash, c => if c = '-' then (.out, [.edgeop]) else (.bad, [])
  | .bad, _ => (.bad, [])

/-! ### Statements -/

/-- A statement of a graph; the default attributes are none. -/
inductive Stmt
  | node (a : CStr)
  | edge (a b : CStr)
deriving DecidableEq, Repr

/-- Where the reader of tokens is: in the head of the graph, between statements,
behind a keyword, a node, an edge operator or an edge, or in attributes. -/
inductive Place
  | file
  | graph
  | named
  | body
  | keyword
  | node (a : CStr)
  | edge (a : CStr)
  | edgeTo (a b : CStr)
  | attrs
  | done
  | bad
deriving DecidableEq, Repr

/-- The words that begin default attributes. -/
def keywords : List CStr := ["node".toList, "edge".toList, "graph".toList]

/-- A token between statements. -/
def parseBody : Token → Place
  | .quoted a => .node a
  | .word w => if w ∈ keywords then .keyword else .node w
  | .punct c => if c = '\x7d' then .done else if c = ';' then .body else .bad
  | .edgeop => .bad

def parseStep : Place → Token → Place × List Stmt
  | .file, .word w => (if w = "graph".toList then .graph else .bad, [])
  | .graph, .word _ => (.named, [])
  | .graph, .quoted _ => (.named, [])
  | .named, .punct c => (if c = '\x7b' then .body else .bad, [])
  | .body, t => (parseBody t, [])
  | .keyword, .punct c => (if c = '[' then .attrs else .bad, [])
  | .node a, .edgeop => (.edge a, [])
  | .node a, t => (if t = .punct '[' then .attrs else parseBody t, [.node a])
  | .edge a, .quoted b => (.edgeTo a b, [])
  | .edge a, .word b => (if b ∈ keywords then .bad else .edgeTo a b, [])
  | .edgeTo a b, .edgeop => (.edge b, [.edge a b])
  | .edgeTo a b, t => (if t = .punct '[' then .attrs else parseBody t, [.edge a b])
  | .attrs, .punct c => (if c = ']' then .body else if c ∈ ['=', ';', ','] then .attrs else .bad, [])
  | .attrs, .edgeop => (.bad, [])
  | .attrs, _ => (.attrs, [])
  | _, _ => (.bad, [])

/-- The statements of a text, if it is a graph to the end. -/
def read (text : CStr) : Option (List Stmt) :=
  let tokens := run lexStep .out text
  let stmts := run parseStep .file tokens.2
  if tokens.1 = .out ∧ stmts.1 = .done then some stmts.2 else none

theorem read_of_lex {text : CStr} {tokens : List Token} {stmts : List Stmt}
    (hlex : run lexStep .out text = (.out, tokens)) (hparse : run parseStep .file tokens = (.done, stmts)) :
    read text = some stmts := by
  simp only [read, hlex, hparse, and_self, if_true]

/-! ### Names in quotes -/

/-- There is no quote in the name, and no backslash but before another character of
it, nor before the end of a line. -/
def Plain : CStr → Prop
  | [] => True
  | [c] => c ≠ '"' ∧ c ≠ '\\'
  | c :: d :: s => if c = '\\' then d ≠ '"' ∧ d ≠ '\n' ∧ Plain s else c ≠ '"' ∧ Plain (d :: s)

def quote (s : CStr) : CStr := '"' :: s ++ ['"']

theorem lexStep_quoted {c : Char} (hq : c ≠ '"') (hb : c ≠ '\\') (s : CStr) :
    lexStep (.quoted s) c = (.quoted (s ++ [c]), []) := by
  rw [lexStep, if_neg hq, if_neg hb]

theorem lexStep_backslash (s : CStr) : lexStep (.quoted s) '\\' = (.escaped s, []) := rfl

theorem lexStep_escaped {c : Char} (hq : c ≠ '"') (hn : c ≠ '\n') (s : CStr) :
    lexStep (.escaped s) c = (.quoted (s ++ ['\\', c]), []) := by
  rw [lexStep, if_neg hq, if_neg hn]

theorem lex_plain : ∀ (s : CStr), Plain s → ∀ read, run lexStep (.quoted read) s = (.quoted (read ++ s), [])
  | [], _, read => by rw [List.append_nil]; rfl
  | [c], h, read => by rw [run_cons, lexStep_quoted h.1 h.2]; rfl
  | c :: d :: s, h, read => by
    unfold Plain at h
    by_cases hc : c = '\\'
    · rw [if_pos hc] at h
      rw [hc, run_cons, lexStep_backslash, run_cons, lexStep_escaped h.1 h.2.1,
        lex_plain s h.2.2 (read ++ ['\\', d])]
      simp
    · rw [if_neg hc] at h
      rw [run_cons, lexStep_quoted h.1 hc, lex_plain (d :: s) h.2 (read ++ [c])]
      simp

/-- **A plain name in quotes is one token.** -/
theorem lex_quote {s : CStr} (h : Plain s) : run lexStep .out (quote s) = (.out, [.quoted s]) := by
  have hs := lex_plain s h []
  have hopen : run lexStep .out ['"'] = (.quoted [], []) := rfl
  have hclose : run lexStep (.quoted s) ['"'] = (.out, [.quoted s]) := rfl
  exact run_trans (run_trans hopen hs) hclose

end Dot
end AthemeContrib
