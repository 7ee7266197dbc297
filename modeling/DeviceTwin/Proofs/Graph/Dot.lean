import DeviceTwin.Graph.Dot
import DeviceTwin.Proofs.Graph.Walk
import DeviceTwin.Proofs.Text.Split

/-!
# What a DOT text says

`Dot.read?` reads a DOT text from left to right and knows nothing of machines: the text is
cut into words, quoted texts and marks (`tokens`), these into statements at the semicolons
(`statements`), and a statement draws a node, draws an edge, or sets defaults (`Drawing.add?`).
A quoted text ends at the first quote that no backslash marks, so whatever a name holds, it is
one token. The drawing read from the text of a machine is then the one of the machine
(`read?_toDot`), and nothing of a drawing is lost in the text.
-/

namespace DeviceTwin

open DeviceTwin.Text

/-! ### Labels -/

namespace Trigger

/-- The trigger that a label tells. -/
def ofLabel? (s : List Char) : Option Trigger :=
  match afterBeginning "command:".toList s with
  | some name => some (command (String.ofList name))
  | none =>
    match afterBeginning "event:".toList s with
    | some name => some (event (String.ofList name))
    | none =>
      (afterBeginning "when ".toList s).map fun expression => condition (String.ofList expression)

/-- The first letter of a label tells the three kinds of triggers apart. -/
theorem ofLabel?_label (t : Trigger) : ofLabel? t.label.toList = some t := by
  cases t <;> simp [ofLabel?, label, afterBeginning]

end Trigger

namespace Dot

/-! ### Reading -/

/-- A quoted text, from behind its first quote on, and what stands behind its last one. -/
def quotedAt : List Char → Option (List Char × List Char)
  | [] => none
  | '"' :: s => some ([], s)
  | '\\' :: '"' :: s => (quotedAt s).map fun (t, r) => ('"' :: t, r)
  | '\\' :: '\\' :: s => (quotedAt s).map fun (t, r) => ('\\' :: t, r)
  | c :: s => (quotedAt s).map fun (t, r) => (c :: t, r)

theorem length_lt_of_quotedAt {s t r : List Char} (h : quotedAt s = some (t, r)) :
    r.length < s.length := by
  fun_induction quotedAt s generalizing t with
  | case1 => exact nomatch h
  | case2 s =>
      obtain ⟨-, rfl⟩ := Prod.mk.inj (Option.some.inj h)
      exact Nat.lt_succ_self _
  | case3 s ih | case4 s ih =>
      obtain ⟨⟨t', r'⟩, hread, heq⟩ := Option.map_eq_some_iff.1 h
      obtain ⟨-, rfl⟩ := Prod.mk.inj heq
      exact Nat.lt_succ_of_lt (Nat.lt_succ_of_lt (ih hread))
  | case5 c s _ _ _ ih =>
      obtain ⟨⟨t', r'⟩, hread, heq⟩ := Option.map_eq_some_iff.1 h
      obtain ⟨-, rfl⟩ := Prod.mk.inj heq
      exact Nat.lt_succ_of_lt (ih hread)

inductive Token where
  | word (s : List Char)
  | text (s : String)
  | mark (c : Char)
  deriving DecidableEq

def isBlank (c : Char) : Bool :=
  c = ' ' || c = '\n'

def isWordChar (c : Char) : Bool :=
  isLetter c || isDigit c || c = '_'

def tokens (s : List Char) : Option (List Token) :=
  match s with
  | [] => some []
  | c :: s =>
    if c = '"' then
      match h : quotedAt s with
      | none => none
      | some (t, r) =>
        have := length_lt_of_quotedAt h
        (tokens r).map (.text (String.ofList t) :: ·)
    else if isBlank c then tokens s
    else if isWordChar c then
      have := (List.dropWhile_suffix isWordChar (l := s)).length_le
      (tokens (s.dropWhile isWordChar)).map (.word (c :: s.takeWhile isWordChar) :: ·)
    else (tokens s).map (.mark c :: ·)
termination_by s.length
decreasing_by all_goals simp only [List.length_cons]; omega

/-- The statements up to a closing brace, each without the semicolon at its end. -/
def statements : List Token → Option (List (List Token))
  | [] => none
  | [.mark '\x7d'] => some []
  | .mark ';' :: ts => (statements ts).map ([] :: ·)
  | t :: ts =>
    match statements ts with
    | some (s :: ss) => some ((t :: s) :: ss)
    | _ => none

abbrev Attributes := List (List Char × Token)

/-- The attributes of a node or an edge, from behind their bracket on. -/
def attributes? : List Token → Option Attributes
  | [.word key, .mark '=', value, .mark ']'] => some [(key, value)]
  | .word key :: .mark '=' :: value :: .mark ',' :: ts =>
    (attributes? ts).map ((key, value) :: ·)
  | _ => none

/-- The trigger in the label of an edge. -/
def trigger? (as : Attributes) : Option Trigger :=
  match as.find? fun a => a.1 = "label".toList with
  | some (_, .text label) => Trigger.ofLabel? label.toList
  | _ => none

structure Node where
  name : String
  isInitial : Bool
  isUndeclared : Bool
  deriving DecidableEq

/-- A doubled outline is that of an initial state, a dashed one that of a name which is no
declared state. -/
def nodeOf (name : String) (as : Attributes) : Node :=
  ⟨name, as.contains ("peripheries".toList, .word ['2']),
    as.contains ("style".toList, .word "dashed".toList)⟩

structure Drawing where
  nodes : List Node
  edges : List (String × String × Trigger)
  deriving DecidableEq

/-- Puts what a statement draws in front of a drawing. -/
def Drawing.add? (d : Drawing) : List Token → Option Drawing
  | .text name :: .mark '[' :: ts =>
    (attributes? ts).map fun as => { d with nodes := nodeOf name as :: d.nodes }
  | .text source :: .mark '-' :: .mark '>' :: .text target :: .mark '[' :: ts =>
    (attributes? ts).bind trigger? |>.map fun t =>
      { d with edges := (source, target, t) :: d.edges }
  | .word _ :: _ => some d
  | _ => none

def Drawing.ofStatements? : List (List Token) → Option Drawing
  | [] => some ⟨[], []⟩
  | s :: ss => (ofStatements? ss).bind fun d => d.add? s

/-- The drawing that a DOT text describes. -/
def read? (s : String) : Option Drawing :=
  (tokens s.toList).bind fun ts =>
    match ts with
    | .word _ :: .word _ :: .mark '\x7b' :: ts => (statements ts).bind Drawing.ofStatements?
    | _ => none

/-! ### Tokens of a text that was written -/

section Tokens

variable {c : Char} {s : List Char}

theorem tokens_nil : tokens [] = some [] := by
  rw [tokens]

theorem tokens_cons (c : Char) (s : List Char) :
    tokens (c :: s) =
      if c = '"' then (quotedAt s).bind fun p => (tokens p.2).map (.text (String.ofList p.1) :: ·)
      else if isBlank c then tokens s
      else if isWordChar c then
        (tokens (s.dropWhile isWordChar)).map (.word (c :: s.takeWhile isWordChar) :: ·)
      else (tokens s).map (.mark c :: ·) := by
  rw [tokens]
  by_cases hquote : c = '"'
  · rw [if_pos hquote, if_pos hquote]
    split
    · rename_i h
      simp only [h, Option.bind_none]
    · rename_i h
      simp only [h, Option.bind_some]
  · rw [if_neg hquote, if_neg hquote]

theorem tokens_blank (h : isBlank c = true) : tokens (c :: s) = tokens s := by
  have hquote : c ≠ '"' := by rintro rfl; exact absurd h (by decide)
  rw [tokens_cons, if_neg hquote, if_pos h]

theorem tokens_mark (hquote : c ≠ '"') (hblank : isBlank c = false)
    (hword : isWordChar c = false) : tokens (c :: s) = (tokens s).map (.mark c :: ·) := by
  rw [tokens_cons, if_neg hquote, if_neg (by simp [hblank]), if_neg (by simp [hword])]

/-- A word ends in front of the first character that cannot be in it. -/
theorem tokens_word {w : List Char} {d : Char} (hw : w ≠ []) (hall : w.all isWordChar = true)
    (hd : isWordChar d = false) :
    tokens (w ++ d :: s) = (tokens (d :: s)).map (.word w :: ·) := by
  obtain ⟨c, w, rfl⟩ := List.exists_cons_of_ne_nil hw
  obtain ⟨hc, hall⟩ : isWordChar c = true ∧ ∀ x ∈ w, isWordChar x = true := by simpa using hall
  have hquote : c ≠ '"' := by rintro rfl; exact absurd hc (by decide)
  have hblank : isBlank c = false := by
    refine Bool.eq_false_iff.2 fun hblank => ?_
    rcases (by simpa [isBlank] using hblank : c = ' ' ∨ c = '\n') with rfl | rfl
    · exact absurd hc (by decide)
    · exact absurd hc (by decide)
  obtain ⟨htake, hdrop⟩ := takeWhile_append_stop (s := d :: s) hall fun x hx =>
    Option.some.inj hx ▸ hd
  rw [List.cons_append, tokens_cons, if_neg hquote, if_neg (by simp [hblank]), if_pos hc, htake,
    hdrop]

/-- Whatever a name holds, it is read up to its own closing quote. -/
theorem quotedAt_dotChar (t rest : List Char) :
    quotedAt (t.flatMap StateGraph.dotChar ++ '"' :: rest) = some (t, rest) := by
  induction t with
  | nil => rw [List.flatMap_nil, List.nil_append, quotedAt]
  | cons c t ih =>
      rw [List.flatMap_cons, List.append_assoc, StateGraph.dotChar]
      by_cases hquote : c = '"'
      · subst hquote
        simp only [true_or, if_true, List.cons_append, List.nil_append, quotedAt, ih, Option.map]
      · by_cases hslash : c = '\\'
        · subst hslash
          simp only [or_true, if_true, List.cons_append, List.nil_append, quotedAt, ih, Option.map]
        · rw [if_neg (not_or.2 ⟨hquote, hslash⟩), List.singleton_append, quotedAt, ih]
          · rfl
          · exact hquote
          · exact fun _ h _ => hslash h
          · exact fun _ h _ => hslash h

theorem tokens_dotQuoted (name : String) (rest : List Char) :
    tokens (StateGraph.dotQuoted name ++ rest) = (tokens rest).map (.text name :: ·) := by
  rw [StateGraph.dotQuoted, List.append_assoc, List.cons_append, List.singleton_append,
    tokens_cons, if_pos rfl, quotedAt_dotChar, Option.bind_some, String.ofList_toList]

end Tokens

/-! ### Statements of a text that was written -/

def keyed (key : List Char) (value : Token) : List Token :=
  [.word key, .mark '=', value]

def outline : List Token := .mark ',' :: keyed "peripheries".toList (.word ['2'])

def dashed : List Token := .mark ',' :: keyed "style".toList (.word "dashed".toList)

def nodeStatement (g : StateGraph) (name : String) : List Token :=
  .text name :: .mark '[' :: keyed "label".toList (.text name) ++
    (if name = g.initial then outline else []) ++ (if g.isDeclared name then [] else dashed) ++
    [.mark ']']

def edgeStatement (g : StateGraph) (e : StateGraph.Edge) : List Token :=
  .text (g.nameOf e.source) :: .mark '-' :: .mark '>' :: .text (g.nameOf e.target) ::
    .mark '[' :: keyed "label".toList (.text e.trigger.label) ++ [.mark ']']

section Lines

variable {s : List Char} {d : Char}

theorem tokens_label (label : String) (s : List Char) :
    tokens (" [label=".toList ++ (StateGraph.dotQuoted label ++ s)) =
      (tokens s).map (.mark '[' :: keyed "label".toList (.text label) ++ ·) := by
  have hblank : tokens (" [label=".toList ++ (StateGraph.dotQuoted label ++ s)) =
      tokens ('[' :: ("label".toList ++ '=' :: (StateGraph.dotQuoted label ++ s))) :=
    tokens_blank (by decide)
  rw [hblank, tokens_mark (by decide) (by decide) (by decide),
    tokens_word (by decide) (by decide) (by decide),
    tokens_mark (by decide) (by decide) (by decide), tokens_dotQuoted]
  simp only [Option.map_map]
  rfl

/-- A further attribute whose value is a word. -/
theorem tokens_keyed (key value : List Char) (hkey : key ≠ [] ∧ key.all isWordChar = true)
    (hvalue : value ≠ [] ∧ value.all isWordChar = true) (hd : isWordChar d = false) :
    tokens (',' :: ' ' :: (key ++ '=' :: (value ++ d :: s))) =
      (tokens (d :: s)).map (.mark ',' :: keyed key (.word value) ++ ·) := by
  rw [tokens_mark (by decide) (by decide) (by decide), tokens_blank (by decide),
    tokens_word hkey.1 hkey.2 (by decide), tokens_mark (by decide) (by decide) (by decide),
    tokens_word hvalue.1 hvalue.2 hd]
  simp only [Option.map_map]
  rfl

theorem tokens_outline (hd : isWordChar d = false) :
    tokens (", peripheries=2".toList ++ d :: s) = (tokens (d :: s)).map (outline ++ ·) :=
  tokens_keyed "peripheries".toList ['2'] (by decide) (by decide) hd

theorem tokens_dashed (hd : isWordChar d = false) :
    tokens (", style=dashed".toList ++ d :: s) = (tokens (d :: s)).map (dashed ++ ·) :=
  tokens_keyed "style".toList "dashed".toList (by decide) (by decide) hd

theorem tokens_lineEnd (s : List Char) :
    tokens (']' :: ';' :: '\n' :: s) = (tokens s).map ([.mark ']', .mark ';'] ++ ·) := by
  rw [tokens_mark (by decide) (by decide) (by decide),
    tokens_mark (by decide) (by decide) (by decide), tokens_blank (by decide), Option.map_map]
  rfl

/-- The end of a node's line, which no word goes on into. -/
theorem tokens_nodeEnd (g : StateGraph) (name : String) (s : List Char) :
    ∃ d t,
      (if g.isDeclared name then [] else ", style=dashed".toList) ++ ']' :: ';' :: '\n' :: s =
        d :: t ∧ isWordChar d = false ∧
      tokens (d :: t) = (tokens s).map
        ((if g.isDeclared name then [] else dashed) ++ [.mark ']', .mark ';'] ++ ·) := by
  split_ifs
  · exact ⟨']', _, rfl, by decide, tokens_lineEnd s⟩
  · refine ⟨',', _, rfl, by decide, ?_⟩
    refine (tokens_dashed (by decide)).trans ?_
    rw [tokens_lineEnd, Option.map_map]
    rfl

theorem tokens_dotNode (g : StateGraph) (name : String) (s : List Char) :
    tokens (g.dotNode name ++ s) = (tokens s).map (nodeStatement g name ++ .mark ';' :: ·) := by
  obtain ⟨d, t, hend, hd, htokens⟩ := tokens_nodeEnd g name s
  simp only [StateGraph.dotNode, List.append_assoc, List.cons_append, List.nil_append]
  rw [tokens_blank (by decide), tokens_blank (by decide), tokens_dotQuoted, tokens_label, hend,
    nodeStatement]
  by_cases hinitial : name = g.initial
  · rw [if_pos hinitial, if_pos hinitial, tokens_outline hd, htokens]
    simp [Option.map_map, Function.comp_def]
  · rw [if_neg hinitial, if_neg hinitial, List.nil_append, htokens]
    simp [Option.map_map, Function.comp_def]

theorem tokens_dotEdge (g : StateGraph) (e : StateGraph.Edge) (s : List Char) :
    tokens (g.dotEdge e ++ s) = (tokens s).map (edgeStatement g e ++ .mark ';' :: ·) := by
  have harrow : ∀ s, tokens (" -> ".toList ++ s) =
      (tokens s).map ([.mark '-', .mark '>'] ++ ·) := by
    intro s
    have hblank : tokens (" -> ".toList ++ s) = tokens ('-' :: '>' :: ' ' :: s) :=
      tokens_blank (by decide)
    rw [hblank, tokens_mark (by decide) (by decide) (by decide),
      tokens_mark (by decide) (by decide) (by decide), tokens_blank (by decide), Option.map_map]
    rfl
  simp only [StateGraph.dotEdge, List.append_assoc, List.cons_append, List.nil_append]
  rw [tokens_blank (by decide), tokens_blank (by decide), tokens_dotQuoted, harrow,
    tokens_dotQuoted, tokens_label, tokens_lineEnd]
  simp only [Option.map_map]
  rfl

/-- What stands in front of the nodes: the name of the graph and three statements that draw
nothing. -/
def headStatements : List (List Token) :=
  [keyed "rankdir".toList (.word "LR".toList),
    .word "node".toList :: .mark '[' :: keyed "shape".toList (.word "box".toList) ++
      .mark ',' :: keyed "style".toList (.word "rounded".toList) ++
      .mark ',' :: keyed "fontname".toList (.text "Helvetica") ++
      .mark ',' :: keyed "fontsize".toList (.word "10".toList) ++ [.mark ']'],
    .word "edge".toList :: .mark '[' :: keyed "fontname".toList (.text "Helvetica") ++
      .mark ',' :: keyed "fontsize".toList (.word "8".toList) ++ [.mark ']']]

def ended (ss : List (List Token)) : List Token :=
  ss.flatMap (· ++ [.mark ';'])

theorem tokens_dotHead (s : List Char) :
    tokens (StateGraph.dotHead.flatMap (fun line => line.toList ++ ['\n']) ++ s) =
      (tokens s).map (.word "digraph".toList :: .word "StateMachine".toList :: .mark '\x7b' ::
        ended headStatements ++ ·) := by
  simp [StateGraph.dotHead, headStatements, ended, keyed, tokens_cons, quotedAt, isBlank,
    isWordChar, isLetter, isUpper, isLower, isDigit, Function.comp_def]

end Lines

/-! ### Drawings of a text that was written -/

section Drawings

variable {ts : List Token} {ss : List (List Token)}

/-- Nothing in the statement ends it or the graph. -/
def Inner (ts : List Token) : Prop :=
  ∀ t ∈ ts, t ≠ .mark ';' ∧ t ≠ .mark '\x7d'

theorem statements_cons {t : Token} (h : t ≠ .mark ';' ∧ t ≠ .mark '\x7d') (ts : List Token) :
    statements (t :: ts) =
      match statements ts with
      | some (s :: ss) => some ((t :: s) :: ss)
      | _ => none := by
  rw [statements]
  · exact fun h' _ => h.2 h'
  · exact h.1

theorem statements_append (h : Inner ts) (rest : List Token) :
    statements (ts ++ .mark ';' :: rest) = (statements rest).map (ts :: ·) := by
  induction ts with
  | nil =>
      rw [List.nil_append, statements]
  | cons t ts ih =>
      obtain ⟨ht, hts⟩ := List.forall_mem_cons.1 h
      rw [List.cons_append, statements_cons ht, ih hts]
      cases statements rest with
      | none => rfl
      | some ss => rfl

theorem statements_ended (h : ∀ s ∈ ss, Inner s) (rest : List Token) :
    statements (ended ss ++ rest) = (statements rest).map (ss ++ ·) := by
  induction ss with
  | nil => exact Option.map_id'.symm
  | cons s ss ih =>
      obtain ⟨hs, hss⟩ := List.forall_mem_cons.1 h
      have hsplit : ended (s :: ss) ++ rest = s ++ .mark ';' :: (ended ss ++ rest) := by
        simp [ended]
      rw [hsplit, statements_append hs, ih hss, Option.map_map]
      rfl

theorem ended_append (ss ss' : List (List Token)) : ended (ss ++ ss') = ended ss ++ ended ss' :=
  List.flatMap_append

variable (g : StateGraph)

theorem inner_nodeStatement (name : String) : Inner (nodeStatement g name) := by
  simp only [Inner, nodeStatement, keyed, outline, dashed]
  split_ifs <;> simp

theorem inner_edgeStatement (e : StateGraph.Edge) : Inner (edgeStatement g e) := by
  simp [Inner, edgeStatement, keyed]

theorem inner_headStatements : ∀ s ∈ headStatements, Inner s := by
  simp [headStatements, Inner, keyed]

/-- The statements of a whole graph. -/
def graphStatements : List (List Token) :=
  headStatements ++ (g.nodes.map (nodeStatement g) ++ g.edges.map (edgeStatement g))

theorem tokens_dotNodes (names : List String) (s : List Char) :
    tokens (names.flatMap g.dotNode ++ s) =
      (tokens s).map (ended (names.map (nodeStatement g)) ++ ·) := by
  induction names with
  | nil => exact Option.map_id'.symm
  | cons name names ih =>
      rw [List.flatMap_cons, List.append_assoc, tokens_dotNode, ih, Option.map_map]
      simp [ended, Function.comp_def]

theorem tokens_dotEdges (es : List StateGraph.Edge) (s : List Char) :
    tokens (es.flatMap g.dotEdge ++ s) =
      (tokens s).map (ended (es.map (edgeStatement g)) ++ ·) := by
  induction es with
  | nil => exact Option.map_id'.symm
  | cons e es ih =>
      rw [List.flatMap_cons, List.append_assoc, tokens_dotEdge, ih, Option.map_map]
      simp [ended, Function.comp_def]

theorem tokens_dotText :
    tokens g.dotText = some (.word "digraph".toList :: .word "StateMachine".toList ::
      .mark '\x7b' :: (ended (graphStatements g) ++ [.mark '\x7d'])) := by
  have hclose : tokens ['\x7d', '\n'] = some [.mark '\x7d'] := by
    rw [tokens_mark (by decide) (by decide) (by decide), tokens_blank (by decide), tokens_nil]
    rfl
  rw [StateGraph.dotText, List.append_assoc, List.append_assoc, List.cons_append, tokens_dotHead,
    tokens_dotNodes, tokens_blank (by decide), tokens_dotEdges, hclose, graphStatements,
    ended_append, ended_append]
  simp

theorem statements_graphStatements :
    statements (ended (graphStatements g) ++ [.mark '\x7d']) = some (graphStatements g) := by
  have hinner : ∀ s ∈ graphStatements g, Inner s := by
    refine List.forall_mem_append.2 ⟨inner_headStatements, List.forall_mem_append.2 ⟨?_, ?_⟩⟩
    · exact List.forall_mem_map.2 fun name _ => inner_nodeStatement g name
    · exact List.forall_mem_map.2 fun e _ => inner_edgeStatement g e
  rw [statements_ended hinner, statements, Option.map_some, List.append_nil]

/-- The drawing of a graph. -/
def drawing : Drawing where
  nodes := g.nodes.map fun name => ⟨name, decide (name = g.initial), !g.isDeclared name⟩
  edges := g.edges.map fun e => (g.nameOf e.source, g.nameOf e.target, e.trigger)

theorem add?_nodeStatement (d : Drawing) (name : String) :
    d.add? (nodeStatement g name) = some
      { d with nodes := ⟨name, decide (name = g.initial), !g.isDeclared name⟩ :: d.nodes } := by
  have houtline : (if name = g.initial then outline else []) =
      if decide (name = g.initial) then outline else [] := by
    simp only [decide_eq_true_eq]
  rw [nodeStatement, houtline]
  -- What is left of the name and the graph are two truth values.
  cases decide (name = g.initial) <;> cases g.isDeclared name <;> rfl

theorem add?_edgeStatement (d : Drawing) (e : StateGraph.Edge) :
    d.add? (edgeStatement g e) =
      some { d with edges := (g.nameOf e.source, g.nameOf e.target, e.trigger) :: d.edges } := by
  simp [edgeStatement, Drawing.add?, keyed, attributes?, trigger?, Trigger.ofLabel?_label]

theorem ofStatements?_edges (es : List StateGraph.Edge) :
    Drawing.ofStatements? (es.map (edgeStatement g)) =
      some ⟨[], es.map fun e => (g.nameOf e.source, g.nameOf e.target, e.trigger)⟩ := by
  induction es with
  | nil => rfl
  | cons e es ih =>
      rw [List.map_cons, Drawing.ofStatements?, ih, Option.bind_some, add?_edgeStatement]
      rfl

theorem ofStatements?_nodes {ss : List (List Token)} {d : Drawing}
    (h : Drawing.ofStatements? ss = some d) (names : List String) :
    Drawing.ofStatements? (names.map (nodeStatement g) ++ ss) =
      some { d with nodes := (names.map fun name =>
        ⟨name, decide (name = g.initial), !g.isDeclared name⟩) ++ d.nodes } := by
  induction names with
  | nil => exact h
  | cons name names ih =>
      rw [List.map_cons, List.cons_append, Drawing.ofStatements?, ih, Option.bind_some,
        add?_nodeStatement]
      rfl

theorem ofStatements?_graphStatements :
    Drawing.ofStatements? (graphStatements g) = some (drawing g) := by
  have hdrawn := ofStatements?_nodes g (ofStatements?_edges g g.edges) g.nodes
  rw [List.append_nil] at hdrawn
  simp only [graphStatements, headStatements, List.cons_append, List.nil_append,
    Drawing.ofStatements?, hdrawn]
  rfl

theorem read?_toDot : read? g.toDot = some (drawing g) := by
  rw [read?, StateGraph.toDot, String.toList_ofList, tokens_dotText]
  simp only [Option.bind_some, statements_graphStatements, ofStatements?_graphStatements]

end Drawings

end Dot

/-! ### The drawing of a machine -/

namespace StateGraph

/-- Marking quotes and backslashes at once is doubling the backslashes and marking the quotes
after that. The other order would mark the backslashes of the quotes again. -/
theorem flatMap_dotChar (s : List Char) :
    s.flatMap dotChar =
      (s.flatMap fun c => if c = '\\' then ['\\', '\\'] else [c]).flatMap
        fun c => if c = '"' then ['\\', '"'] else [c] := by
  rw [List.flatMap_assoc]
  refine List.flatMap_congr fun c _ => ?_
  by_cases hquote : c = '"'
  · rw [hquote]
    rfl
  · by_cases hslash : c = '\\'
    · rw [hslash]
      rfl
    · simp [dotChar, hquote, hslash]

/-- A text depends on no more of a graph than is drawn. -/
theorem toDot_congr {g g' : StateGraph} (hnodes : g.nodes = g'.nodes)
    (hinitial : g.initial = g'.initial)
    (hdeclared : ∀ name ∈ g.nodes, g.isDeclared name = g'.isDeclared name)
    (hedges : g.edges = g'.edges) : g.toDot = g'.toDot := by
  have hnode : g.nodes.flatMap g.dotNode = g'.nodes.flatMap g'.dotNode := by
    rw [← hnodes]
    refine List.flatMap_congr fun name hname => ?_
    rw [dotNode, dotNode, hinitial, hdeclared name hname]
  have hedge : g.edges.flatMap g.dotEdge = g'.edges.flatMap g'.dotEdge := by
    rw [← hedges]
    refine List.flatMap_congr fun e _ => ?_
    rw [dotEdge, dotEdge, nameOf, nameOf, nameOf, nameOf, hnodes]
  rw [toDot, toDot, dotText, dotText, hnode, hedge]

variable {m m' : StateMachine}

theorem isDeclared_ofMachine (m : StateMachine) (name : String) :
    (ofMachine m).isDeclared name = decide (name ∈ m.stateNames) :=
  List.contains_eq_mem _ _

theorem drawing_ofMachine (m : StateMachine) :
    Dot.drawing (ofMachine m) =
      { nodes := (ofMachine m).nodes.map fun name =>
          ⟨name, decide (name = m.initialState), decide (name ∉ m.stateNames)⟩
        edges := m.transitions.map fun t => (t.source, t.target, t.trigger) } := by
  rw [Dot.drawing, Dot.Drawing.mk.injEq]
  constructor
  · refine List.map_congr_left fun name _ => ?_
    rw [isDeclared_ofMachine, decide_not]
    rfl
  · refine (List.map_map ..).trans (List.map_congr_left fun t ht => ?_)
    have hsource := nameOf_nodeOf (StateMachine.source_mem_occurringNames ht)
    have htarget := nameOf_nodeOf (StateMachine.target_mem_occurringNames ht)
    exact congrArg₂ (fun s s' => (s, s', t.trigger)) hsource htarget

/-- Where the nodes agree, the transitions give the edges. -/
theorem edges_eq_of_transitions (hnodes : (ofMachine m).nodes = (ofMachine m').nodes)
    (h : m.transitions.map (fun t => (t.source, t.target, t.trigger)) =
      m'.transitions.map fun t => (t.source, t.target, t.trigger)) :
    (ofMachine m).edges = (ofMachine m').edges := by
  have hedges : ∀ m : StateMachine, (ofMachine m).edges =
      (m.transitions.map fun t => (t.source, t.target, t.trigger)).map fun e =>
        ⟨(ofMachine m).nodes.idxOf e.1, (ofMachine m).nodes.idxOf e.2.1, e.2.2⟩ := by
    intro m
    rw [List.map_map]
    rfl
  rw [hedges m, hedges m', h, hnodes]

theorem drawn_alike (h : Dot.drawing (ofMachine m) = Dot.drawing (ofMachine m')) :
    (ofMachine m).nodes = (ofMachine m').nodes ∧ m.initialState = m'.initialState ∧
      (∀ name ∈ (ofMachine m).nodes, name ∈ m.stateNames ↔ name ∈ m'.stateNames) ∧
      (ofMachine m).edges = (ofMachine m').edges := by
  rw [drawing_ofMachine, drawing_ofMachine, Dot.Drawing.mk.injEq] at h
  obtain ⟨hdrawn, htransitions⟩ := h
  have hnodes : (ofMachine m).nodes = (ofMachine m').nodes := by
    have hnames := congrArg (List.map Dot.Node.name) hdrawn
    rw [List.map_map, List.map_map] at hnames
    simpa [Function.comp_def] using hnames
  rw [← hnodes] at hdrawn
  have hflags := List.map_inj_left.1 hdrawn
  refine ⟨hnodes, ?_, fun name hname => ?_, edges_eq_of_transitions hnodes htransitions⟩
  · have hmem : m.initialState ∈ (ofMachine m).nodes :=
      mem_nodes.2 StateMachine.initialState_mem_occurringNames
    have hinitial := hflags m.initialState hmem
    simpa using congrArg Dot.Node.isInitial hinitial
  · simpa [not_iff_not] using congrArg Dot.Node.isUndeclared (hflags name hname)

/-- Read as DOT, the text of a machine gives the nodes in their order, with the marks of the
initial state and of the names that are not declared, and the transitions in their order with
their triggers. So machines have the same text only if their graphs have the same nodes, with
the same marks, and the same edges. -/
theorem dot_text_keeps_graph (m m' : StateMachine) :
    Dot.read? (ofMachine m).toDot = some
      { nodes := (ofMachine m).nodes.map fun name =>
          ⟨name, decide (name = m.initialState), decide (name ∉ m.stateNames)⟩
        edges := m.transitions.map fun t => (t.source, t.target, t.trigger) } ∧
    ((ofMachine m).toDot = (ofMachine m').toDot ↔
      (ofMachine m).nodes = (ofMachine m').nodes ∧ m.initialState = m'.initialState ∧
        (∀ name ∈ (ofMachine m).nodes, name ∈ m.stateNames ↔ name ∈ m'.stateNames) ∧
        (ofMachine m).edges = (ofMachine m').edges) := by
  refine ⟨?_, fun h => drawn_alike ?_, ?_⟩
  · rw [Dot.read?_toDot, drawing_ofMachine]
  · have hread := congrArg Dot.read? h
    rwa [Dot.read?_toDot, Dot.read?_toDot, Option.some.injEq] at hread
  · rintro ⟨hnodes, hinitial, hdeclared, hedges⟩
    refine toDot_congr hnodes hinitial (fun name hname => ?_) hedges
    rw [isDeclared_ofMachine, isDeclared_ofMachine, decide_eq_decide]
    exact hdeclared name hname

end StateGraph

end DeviceTwin
