/-
# graphtastical: the graph of channels and users

Two timers write the network down for Graphviz: `channels.dot` has an edge for
each access to a registered channel, `uchannels.dot` one for each user in a
channel. Each writes a new file and then renames it over the old one, so whatever
fails, and wherever the services are killed, the old file stays as it was until
the new one is complete: what is read back is the network at the last write that
went through, if its names are plain (`dot_read`). A nick that ends in a
backslash is not, and has its file unreadable.

The edges from a registered channel to the one before it are never written:
`root` is 1 before the loop, and stays so (`mychansText_root`).

Key definitions: `Mychan`, `Channel`, `channelsDot`, `uchannelsDot`, `writeDotFile`,
`step`, `Linked`, `Shows`.
Key theorems: `read_chart`, `shows`, `dot_history`, `dot_read`.
-/
import AthemeContrib.Lib.Dot
import AthemeContrib.Lib.Since
import Mathlib.Data.List.Basic

namespace AthemeContrib
namespace Graphtastical

open Dot

/-- `chanacs_t`; an entry is for an entity or for a hostmask, and `CA_AKICK` may be
among its flags. -/
structure Chanacs where
  entity : Option CStr
  host : CStr
  akick : Bool
deriving DecidableEq, Repr

/-- `ca->entity ? ca->entity->name : ca->host` -/
def Chanacs.who (ca : Chanacs) : CStr := ca.entity.getD ca.host

structure Mychan where
  name : CStr
  chanacs : List Chanacs
deriving DecidableEq, Repr

/-- `channel_t`, with the nicks of its members. -/
structure Channel where
  name : CStr
  members : List CStr
deriving DecidableEq, Repr

/-! ### What is written -/

def attrsText : CStr := "[fontname=\"Verdana\" fontsize=8]\n".toList

/-- The default attributes of edges and of nodes. -/
def edgeText : CStr := "edge [color=blue len=7.5 fontname=\"Verdana\" fontsize=8]\n".toList

def nodeText : CStr := "node ".toList ++ attrsText

/-- The head of a file, behind the name of the graph. -/
def headText : CStr := " \x7b\n".toList ++ edgeText ++ nodeText

/-- `"\"%s\" -- \"%s\" [fontname=\"Verdana\" fontsize=8]\n"` -/
def linkText (name who : CStr) : CStr := quote who ++ " -- ".toList ++ quote name ++ ' ' :: attrsText

/-- What `write_channels_dot_file` writes of a channel, `pmc` being the one
before. -/
def mychanText (root : Bool) (pmc : CStr) (mc : Mychan) : CStr :=
  quote mc.name ++ (if root then [] else "-- ".toList ++ quote pmc) ++ attrsText ++
    (mc.chanacs.filter fun ca => !ca.akick).flatMap fun ca => linkText mc.name ca.who

/-- The loop of it. -/
def mychansText (root : Bool) : CStr → List Mychan → CStr
  | _, [] => []
  | pmc, mc :: mclist => mychanText root pmc mc ++ mychansText root mc.name mclist

/-- `channels.dot` -/
def channelsDot (mclist : List Mychan) : CStr :=
  "graph ".toList ++ "channels".toList ++ headText ++ mychansText true [] mclist ++ "\x7d\n".toList

/-- What `write_uchannels_dot_file` writes of a channel. -/
def channelText (c : Channel) : CStr := quote c.name ++ attrsText ++ c.members.flatMap (linkText c.name)

/-- `uchannels.dot` -/
def uchannelsDot (chanlist : List Channel) : CStr :=
  "graph ".toList ++ "uchannels".toList ++ headText ++ chanlist.flatMap channelText ++ "\x7d\n".toList

/-! ### The files -/

/-- The two graphs. -/
inductive Kind
  | channels
  | uchannels
deriving DecidableEq, Repr

/-- A file and the one it is written to first, where they exist. -/
structure Files where
  dot : Option CStr
  dotNew : Option CStr
deriving DecidableEq, Repr

/-- What comes of a write: the new file cannot be created; an error is found when
`n` characters have been written; it cannot be renamed; the services are killed
when `n` characters have been written; or it is done. -/
inductive Fate
  | cannotCreate
  | cannotWrite (n : ℕ)
  | cannotRename
  | killed (n : ℕ)
  | done
deriving DecidableEq, Repr

/-- `write_channels_dot_file` and `write_uchannels_dot_file`, for the text they
write. -/
def writeDotFile (text : CStr) (fate : Fate) (f : Files) : Files :=
  match fate with
  | .cannotCreate => f
  | .cannotWrite n => { f with dotNew := some (text.take n) }
  | .cannotRename => { f with dotNew := some text }
  | .killed n => { f with dotNew := some (text.take n) }
  | .done => { dot := some text, dotNew := none }

structure State where
  mclist : List Mychan
  chanlist : List Channel
  files : Kind → Files

/-- What is written of a network. -/
def State.text (s : State) : Kind → CStr
  | .channels => channelsDot s.mclist
  | .uchannels => uchannelsDot s.chanlist

/-- The registered channels or the channels become others, or a graph is written, by
its timer or as the module is loaded. -/
inductive Event
  | mychans (mclist : List Mychan)
  | chans (chanlist : List Channel)
  | write (k : Kind) (fate : Fate)
deriving DecidableEq, Repr

def step (s : State) : Event → Option State
  | .mychans mclist => some { s with mclist }
  | .chans chanlist => some { s with chanlist }
  | .write k fate => some { s with files := Function.update s.files k (writeDotFile (s.text k) fate (s.files k)) }

/-! ### What a graph shows -/

def nodes (g : List Stmt) : List CStr :=
  g.filterMap fun st =>
    match st with
    | .node a => some a
    | .edge _ _ => none

/-- The names of the channels. -/
def State.names (s : State) : Kind → List CStr
  | .channels => s.mclist.map Mychan.name
  | .uchannels => s.chanlist.map Channel.name

/-- `who` has access to the channel `name`, or is in it. -/
def Linked (s : State) (k : Kind) (who name : CStr) : Prop :=
  match k with
  | .channels => ∃ mc ∈ s.mclist, mc.name = name ∧ ∃ ca ∈ mc.chanacs, ca.akick = false ∧ ca.who = who
  | .uchannels => ∃ c ∈ s.chanlist, c.name = name ∧ who ∈ c.members

/-- The names can be written between quotes as they are. -/
def PlainNames (s : State) (k : Kind) : Prop :=
  (∀ name ∈ s.names k, Plain name) ∧ ∀ who name, Linked s k who name → Plain who

/-- The graph has the channels for its nodes, and the links for its edges. -/
structure Shows (s : State) (k : Kind) (g : List Stmt) : Prop where
  nodes : nodes g = s.names k
  edges : ∀ who name, Stmt.edge who name ∈ g ↔ Linked s k who name

/-! ### Reading a text back -/

/-- The statements that are written of a channel and of who is linked to it. -/
def chart (c : CStr × List CStr) : List Stmt := .node c.1 :: c.2.map fun who => .edge who c.1

def chartText (c : CStr × List CStr) : CStr := quote c.1 ++ attrsText ++ c.2.flatMap (linkText c.1)

/-- The tokens of the attributes. -/
def attrsTokens : List Token :=
  [.punct '[', .word "fontname".toList, .punct '=', .quoted "Verdana".toList, .word "fontsize".toList, .punct '=',
    .word ['8'], .punct ']']

def linkTokens (name who : CStr) : List Token := [.quoted who, .edgeop, .quoted name] ++ attrsTokens

def chartTokens (c : CStr × List CStr) : List Token := .quoted c.1 :: attrsTokens ++ c.2.flatMap (linkTokens c.1)

theorem lex_attrs : run lexStep .out attrsText = (.out, attrsTokens) := by decide

theorem lex_link {name who : CStr} (hname : Plain name) (hwho : Plain who) :
    run lexStep .out (linkText name who) = (.out, linkTokens name who) := by
  have hop : run lexStep .out " -- ".toList = (.out, [.edgeop]) := by decide
  have hattrs : run lexStep .out (' ' :: attrsText) = (.out, attrsTokens) := by decide
  exact run_trans (run_trans (run_trans (lex_quote hwho) hop) (lex_quote hname)) hattrs

theorem lex_chart {c : CStr × List CStr} (hname : Plain c.1) (hwho : ∀ who ∈ c.2, Plain who) :
    run lexStep .out (chartText c) = (.out, chartTokens c) :=
  run_trans (run_trans (lex_quote hname) lex_attrs) (run_flatMap c.2 fun who hmem => lex_link hname (hwho who hmem))

theorem parse_link (name who : CStr) :
    run parseStep .body (linkTokens name who) = (.body, [.edge who name]) := rfl

theorem parse_chart (c : CStr × List CStr) : run parseStep .body (chartTokens c) = (.body, chart c) := by
  have hnode : run parseStep .body (.quoted c.1 :: attrsTokens) = (.body, [.node c.1]) := rfl
  have hedges := run_flatMap c.2 fun who _ => parse_link c.1 who
  rw [chart, List.map_eq_flatMap]
  exact run_trans hnode hedges

/-- The tokens of the head. -/
def edgeTokens : List Token :=
  [.word "edge".toList, .punct '[', .word "color".toList, .punct '=', .word "blue".toList,
    .word "len".toList, .punct '=', .word "7.5".toList, .word "fontname".toList, .punct '=',
    .quoted "Verdana".toList, .word "fontsize".toList, .punct '=', .word ['8'], .punct ']']

def headTokens (name : CStr) : List Token :=
  [.word "graph".toList, .word name, .punct '\x7b'] ++ edgeTokens ++ (.word "node".toList :: attrsTokens)

theorem lex_head {name : CStr} (h : run lexStep .out ("graph ".toList ++ name) = (.word name, [.word "graph".toList])) :
    run lexStep .out ("graph ".toList ++ name ++ headText) = (.out, headTokens name) := by
  have hopen : run lexStep (.word name) " \x7b\n".toList = (.out, [.word name, .punct '\x7b']) := rfl
  have hedge : run lexStep .out edgeText = (.out, edgeTokens) := by decide
  have hnode : run lexStep .out nodeText = (.out, .word "node".toList :: attrsTokens) := by decide
  have hhead : run lexStep (.word name) headText = _ := run_trans (run_trans hopen hedge) hnode
  have htext := run_trans h hhead
  exact htext

theorem parse_head (name : CStr) : run parseStep .file (headTokens name) = (.body, []) := rfl

/-- **A text is read back** as the statements of its channels. -/
theorem read_chart {name : CStr} (hname : run lexStep .out ("graph ".toList ++ name) = (.word name, [.word "graph".toList]))
    {cs : List (CStr × List CStr)} (hplain : ∀ c ∈ cs, Plain c.1 ∧ ∀ who ∈ c.2, Plain who) :
    read ("graph ".toList ++ name ++ headText ++ cs.flatMap chartText ++ "\x7d\n".toList) =
      some (cs.flatMap chart) := by
  have htext := run_flatMap cs fun c hc => lex_chart (hplain c hc).1 (hplain c hc).2
  have hstmts := run_flatMap cs fun c _ => parse_chart c
  have hend : run lexStep .out "\x7d\n".toList = (.out, [.punct '\x7d']) := by decide
  have hdone : run parseStep .body [.punct '\x7d'] = (.done, []) := by decide
  have hread := read_of_lex (run_trans (run_trans (lex_head hname) htext) hend)
    (run_trans (run_trans (parse_head name) hstmts) hdone)
  rwa [List.nil_append, List.append_nil] at hread

/-! ### The two graphs -/

/-- The channels of a graph, and who is linked to them. -/
def State.channels (s : State) : Kind → List (CStr × List CStr)
  | .channels => s.mclist.map fun mc => (mc.name, (mc.chanacs.filter fun ca => !ca.akick).map Chanacs.who)
  | .uchannels => s.chanlist.map fun c => (c.name, c.members)

/-- As `root` stays 1, no channel is linked to the one before it. -/
theorem mychansText_root (pmc : CStr) (mclist : List Mychan) : mychansText true pmc mclist =
    mclist.flatMap fun mc => chartText (mc.name, (mc.chanacs.filter fun ca => !ca.akick).map Chanacs.who) := by
  induction mclist generalizing pmc with
  | nil => rfl
  | cons mc mclist ih =>
    rw [mychansText, ih, List.flatMap_cons, mychanText, if_pos rfl, List.append_nil, chartText, List.flatMap_map]

/-- The name of a graph. -/
def Kind.name : Kind → CStr
  | .channels => "channels".toList
  | .uchannels => "uchannels".toList

/-- Either text is that of its graph's channels. -/
theorem text_eq (s : State) (k : Kind) :
    s.text k = "graph ".toList ++ k.name ++ headText ++ (s.channels k).flatMap chartText ++ "\x7d\n".toList := by
  cases k with
  | channels =>
    have hloop : (s.channels .channels).flatMap chartText = mychansText true [] s.mclist := by
      rw [mychansText_root, State.channels, List.flatMap_map]
    rw [hloop]
    rfl
  | uchannels =>
    have hloop : (s.channels .uchannels).flatMap chartText = s.chanlist.flatMap channelText := by
      rw [State.channels, List.flatMap_map]
      exact List.flatMap_congr fun _ _ => rfl
    rw [hloop]
    rfl

theorem names_eq (s : State) (k : Kind) : s.names k = (s.channels k).map Prod.fst := by
  cases k with
  | channels => simp [State.names, State.channels]
  | uchannels => simp [State.names, State.channels]

theorem linked_iff {s : State} {k : Kind} {who name : CStr} :
    Linked s k who name ↔ ∃ c ∈ s.channels k, c.1 = name ∧ who ∈ c.2 := by
  cases k with
  | channels => simp [Linked, State.channels, and_assoc]
  | uchannels => simp [Linked, State.channels]

theorem nodes_append (g g' : List Stmt) : nodes (g ++ g') = nodes g ++ nodes g' := List.filterMap_append

theorem nodes_chart (c : CStr × List CStr) : nodes (chart c) = [c.1] := by
  have hedges : nodes (c.2.map fun who => Stmt.edge who c.1) = [] := by
    rw [nodes, List.filterMap_map, List.filterMap_eq_nil_iff]
    exact fun _ _ => rfl
  rw [chart, ← List.singleton_append, nodes_append, hedges]
  rfl

theorem nodes_flatMap (cs : List (CStr × List CStr)) : nodes (cs.flatMap chart) = cs.map Prod.fst := by
  induction cs with
  | nil => rfl
  | cons c cs ih => rw [List.flatMap_cons, nodes_append, nodes_chart, ih]; rfl

theorem mem_chart {c : CStr × List CStr} {who name : CStr} :
    Stmt.edge who name ∈ chart c ↔ c.1 = name ∧ who ∈ c.2 := by
  simp only [chart, List.mem_cons, reduceCtorEq, List.mem_map, Stmt.edge.injEq, false_or]
  constructor
  · rintro ⟨who', hwho, rfl, hname⟩
    exact ⟨hname, hwho⟩
  · rintro ⟨hname, hwho⟩
    exact ⟨who, hwho, rfl, hname⟩

/-- The statements of its channels show the network. -/
theorem shows (s : State) (k : Kind) : Shows s k ((s.channels k).flatMap chart) where
  nodes := by rw [nodes_flatMap, names_eq]
  edges := by
    intro who name
    rw [List.mem_flatMap, linked_iff]
    simp only [mem_chart]

theorem PlainNames.channels {s : State} {k : Kind} (h : PlainNames s k) :
    ∀ c ∈ s.channels k, Plain c.1 ∧ ∀ who ∈ c.2, Plain who := by
  intro c hc
  refine ⟨h.1 c.1 ?_, fun who hwho => h.2 who c.1 (linked_iff.mpr ⟨c, hc, rfl, hwho⟩)⟩
  rw [names_eq]
  exact List.mem_map_of_mem hc

theorem lex_name (k : Kind) :
    run lexStep .out ("graph ".toList ++ k.name) = (.word k.name, [.word "graph".toList]) := by
  cases k <;> decide

/-- **The text of a network with plain names shows it.** -/
theorem read_text {s : State} {k : Kind} (h : PlainNames s k) : ∃ g, read (s.text k) = some g ∧ Shows s k g := by
  refine ⟨_, ?_, shows s k⟩
  rw [text_eq]
  exact read_chart (lex_name k) h.channels

/-- A nick that ends in a backslash takes the quote behind it along. -/
example : run lexStep .out (quote "b\\".toList) = (.quoted "b\"".toList, []) := by decide

/-! ### Every run -/

/-- The graph `k` is written to the end. -/
abbrev Event.Writes (e : Event) (k : Kind) : Prop := e = .write k .done

/-- Only a write that goes through changes the file. -/
theorem step_dot {s s' : State} {e : Event} (k : Kind) (h : step s e = some s') :
    (s'.files k).dot = if e.Writes k then some (s.text k) else (s.files k).dot := by
  cases e with
  | mychans mclist => cases h; rfl
  | chans chanlist => cases h; rfl
  | write k' fate =>
    cases h
    by_cases hk : k = k'
    · subst hk
      simp only [Function.update_self, Event.Writes, Event.write.injEq, true_and]
      cases fate <;> rfl
    · rw [if_neg fun he => hk (Event.write.inj he).1.symm]
      simp only [Function.update_of_ne hk]

/-- The file of `k` is the one it was at first, or the text of the network at the
last write that went through. -/
def Last (s₀ : State) (k : Kind) (es : List Event) (s : State) : Prop :=
  (.write k .done ∉ es ∧ (s.files k).dot = (s₀.files k).dot) ∨
    ∃ pre post t, es = pre ++ .write k .done :: post ∧ .write k .done ∉ post ∧
      Run.exec step s₀ pre = some t ∧ (s.files k).dot = some (t.text k)

theorem dot_history (s₀ : State) (k : Kind) {es : List Event} {s : State}
    (h : Run.exec step s₀ es = some s) : Last s₀ k es s := by
  have hhistory := Run.since_or_never (A := fun _ e => e.Writes k)
    (B := fun t e => e.Writes k ∧ some (t.text k) = (s.files k).dot)
    (P := fun t => (t.files k).dot = (s.files k).dot) (fun _ => True) trivial (fun _ _ _ _ _ => trivial)
    (fun t e t' _ hstep => by rw [step_dot k hstep]; by_cases he : e.Writes k <;> simp [he]) h
  rcases hhistory.mp rfl with hsince | ⟨heq, hnever⟩
  · obtain ⟨pre, e, post, t, rfl, ht, ⟨rfl, htext⟩, hpost⟩ := (Run.since_iff_split h).mp hsince
    exact Or.inr ⟨pre, post, t, rfl, fun hmem => hpost _ hmem rfl, ht, htext.symm⟩
  · exact Or.inl ⟨fun hmem => hnever.forall h _ hmem rfl, heq.symm⟩

/-- **The file is always a whole graph**: whatever fails and wherever the services are
killed, it is what it was at first, or the text of the network at the last write that
went through, and reads back as that network, where its names are plain. -/
theorem dot_read (s₀ : State) (k : Kind) {es : List Event} {s : State} (h : Run.exec step s₀ es = some s) :
    (.write k .done ∉ es ∧ (s.files k).dot = (s₀.files k).dot) ∨
      ∃ pre post t, es = pre ++ .write k .done :: post ∧ .write k .done ∉ post ∧
        Run.exec step s₀ pre = some t ∧ (s.files k).dot = some (t.text k) ∧
        (PlainNames t k → ∃ g, (s.files k).dot.bind read = some g ∧ Shows t k g) := by
  rcases dot_history s₀ k h with hno | ⟨pre, post, t, hes, hno, ht, hdot⟩
  · exact Or.inl hno
  · refine Or.inr ⟨pre, post, t, hes, hno, ht, hdot, fun hplain => ?_⟩
    rw [hdot]
    exact read_text hplain

def eggsRun : List Event :=
  [.chans [⟨"#eggs".toList, ["alice".toList]⟩], .write .uchannels .done, .chans [],
    .write .uchannels (.killed 7)]

/-- A network with a user in a channel, written once and then again without success. -/
theorem dot_read_eggs : ∃ s : State, Run.exec step ⟨[], [], fun _ => ⟨none, none⟩⟩ eggsRun = some s ∧
    (s.files .uchannels).dotNew = some "graph u".toList ∧
    ((.write .uchannels .done ∉ eggsRun ∧ (s.files .uchannels).dot = none) ∨
      ∃ pre post t, eggsRun = pre ++ .write .uchannels .done :: post ∧
        .write .uchannels .done ∉ post ∧ Run.exec step ⟨[], [], fun _ => ⟨none, none⟩⟩ pre = some t ∧
        (s.files .uchannels).dot = some (t.text .uchannels) ∧
        (PlainNames t .uchannels → ∃ g, (s.files .uchannels).dot.bind read = some g ∧ Shows t .uchannels g)) :=
  ⟨_, rfl, rfl, dot_read ⟨[], [], fun _ => ⟨none, none⟩⟩ .uchannels rfl⟩

end Graphtastical
end AthemeContrib
