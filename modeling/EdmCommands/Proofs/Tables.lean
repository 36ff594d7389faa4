import EdmCommands.Proofs.Documentation

/-!
# EdmCommands.Proofs.Tables

The parameter tables of a page, read back. A page is cut into lines, its last part into the sections
of the sets, and the rows of a table into cells at the bars that are not behind a backslash. Free
text from the schema stands in the last cell of each row.

* `tables`: the sets of a page, each with the rows of its table.
* `cellsOf`, `readRow`: the cells of a row, and the texts in them.
* `unescape_cell`: what is escaped for a cell is read back, with spaces for line breaks.
* `readRow_row`: a row is read back cell by cell.
* `Tabulated`: the tables have one row of seven cells for each parameter of their set, in order.
* `tabulated_of_tablesPlain`: so for all descriptions, but that a carriage return in one stays in
  the row.
-/

namespace EdmCommands
namespace Emission

/-! ## Reading a page -/

def linesOf (text : String) : List String :=
  (text.toList.splitOn '\n').map String.ofList

def isTitle (line : String) : Bool :=
  "### ".toList.isPrefixOf line.toList

/-- Each title with the lines up to the next one. -/
def sections : List String → List (String × List String)
  | [] => []
  | line :: rest =>
    if isTitle line then (line, rest.takeWhile (!isTitle ·)) :: sections rest else sections rest

/-- The line between the head of a parameter table and its rows. -/
def delimiterRow : String :=
  "|---|---|---|---|---|---|---|"

/-- The rows of the parameter table among some lines, down to the first line that is no row. -/
def tableRows (ls : List String) : List String :=
  ((ls.dropWhile (· != delimiterRow)).drop 1).takeWhile (·.toList.head? == some '|')

def setsHeading : String :=
  "## Parameter sets"

/-- The sets of a page, each by its title and the rows of its table. -/
def tables (page : String) : List (String × List String) :=
  (sections ((linesOf page).rtakeWhile (· != setsHeading))).map fun part =>
    (part.1, tableRows part.2)

/-! ## Reading a row -/

/-- A text cut at its bars, but for those behind a backslash; `escaped` says that one stands before
the text. -/
def cutAtBars (escaped : Bool) : List Char → List (List Char)
  | [] => [[]]
  | c :: rest =>
    if c = '|' ∧ escaped = false then [] :: cutAtBars false rest
    else (cutAtBars (c == '\\') rest).modifyHead (c :: ·)

/-- The cells of a row, which starts and ends with a bar. -/
def cellsOf (line : String) : Option (List (List Char)) :=
  match cutAtBars false line.toList with
  | [] :: pieces => if pieces.getLast? = some [] then some pieces.dropLast else none
  | _ => none

/-- The text of a cell, with bars for the escaped ones. -/
def unescape : List Char → List Char
  | '\\' :: '|' :: rest => '|' :: unescape rest
  | c :: rest => c :: unescape rest
  | [] => []

/-- The texts in the cells of a row, each between two spaces. -/
def readRow (line : String) : Option (List String) :=
  (cellsOf line).map fun cells =>
    cells.map fun piece => String.ofList (unescape (piece.drop 1).dropLast)

/-! ## Cells -/

section Cells

variable {s : String} {cs front back : List Char} {c : Char} {escaped : Bool}

/-- Each bar of a text stands behind a backslash; `escaped` says that one stands before it. -/
inductive Unbarred : Bool → List Char → Prop where
  | nil {escaped : Bool} : Unbarred escaped []
  | cons {escaped : Bool} {c : Char} {rest : List Char} (bar : c = '|' → escaped = true)
      (behind : Unbarred (c == '\\') rest) : Unbarred escaped (c :: rest)

theorem unbarred_of_not_mem (h : '|' ∉ cs) : Unbarred escaped cs := by
  induction cs generalizing escaped with
  | nil => exact .nil
  | cons c rest ih =>
    rw [List.mem_cons, not_or] at h
    exact .cons (fun hc => absurd hc.symm h.1) (ih h.2)

theorem unbarred_cell (s : String) (escaped : Bool) : Unbarred escaped (cell s).toList := by
  rw [toList_cell]
  induction s.toList generalizing escaped with
  | nil => exact .nil
  | cons c rest ih =>
    rw [List.flatMap_cons]
    by_cases hbar : c = '|'
    · subst hbar
      have hescaped : Unbarred ('\\' == '\\') ('|' :: rest.flatMap cellChars) :=
        .cons (fun _ => rfl) (ih _)
      exact .cons (fun h => absurd h (by decide)) hescaped
    · by_cases hbreak : c = '\n'
      · subst hbreak
        exact .cons (fun h => absurd h (by decide)) (ih _)
      · rw [cellChars_of_ne hbar hbreak]
        exact .cons (fun h => absurd h hbar) (ih _)

theorem unescape_cons (h : c ≠ '\\' ∨ cs.head? ≠ some '|') :
    unescape (c :: cs) = c :: unescape cs := by
  conv_lhs => unfold unescape
  split <;> simp_all

theorem unescape_of_not_mem (h : '|' ∉ cs) : unescape cs = cs := by
  induction cs with
  | nil => rfl
  | cons c rest ih =>
    rw [List.mem_cons, not_or] at h
    have hhead : rest.head? ≠ some '|' := fun hbar => h.2 (List.mem_of_head? hbar)
    rw [unescape_cons (.inr hhead), ih h.2]

/-- A text with spaces for its line breaks. -/
def blanked (s : String) : String :=
  String.ofList (s.toList.map fun c => if c = '\n' then ' ' else c)

/-- What is escaped for a cell is read back. -/
theorem unescape_cell (s : String) : unescape (cell s).toList = (blanked s).toList := by
  rw [toList_cell, blanked, String.toList_ofList]
  induction s.toList with
  | nil => rfl
  | cons c rest ih =>
    -- behind a backslash of the text no bar follows, but the backslash of an escaped one
    have hhead : (rest.flatMap cellChars).head? ≠ some '|' := by
      cases rest with
      | nil => simp
      | cons d rest =>
        rw [List.flatMap_cons, cellChars]
        split
        · simp
        · split
          · simp
          · simpa using ‹¬(d == '|') = true›
    rw [List.flatMap_cons, List.map_cons, ← ih]
    by_cases hbar : c = '|'
    · subst hbar
      rfl
    · by_cases hbreak : c = '\n'
      · subst hbreak
        exact unescape_cons (.inl (by decide))
      · rw [cellChars_of_ne hbar hbreak, List.singleton_append, unescape_cons (.inr hhead),
          if_neg hbreak]

theorem cell_eq_self (hbar : '|' ∉ s.toList) (hbreak : '\n' ∉ s.toList) : cell s = s := by
  have hchars : ∀ c ∈ s.toList, cellChars c = [c] := by
    intro c hc
    exact cellChars_of_ne (fun heq => hbar (heq ▸ hc)) fun heq => hbreak (heq ▸ hc)
  rw [← String.toList_inj, toList_cell, List.flatMap_congr hchars]
  exact List.flatMap_singleton' _

end Cells

/-! ## Rows -/

section Rows

variable {cells : List String} {text : List Char} {x : Char} {escaped : Bool}

/-- The first cell ends at the first bar behind it. -/
theorem cutAtBars_append (h : Unbarred escaped text) (rest : List Char) :
    cutAtBars escaped (text ++ ' ' :: '|' :: rest) = (text ++ [' ']) :: cutAtBars false rest := by
  induction h with
  | nil => rfl
  | @cons escaped c _ bar _ ih =>
    have hcut : ¬ (c = '|' ∧ escaped = false) := by
      rintro ⟨hc, hescaped⟩
      rw [bar hc] at hescaped
      cases hescaped
    rw [List.cons_append, cutAtBars, if_neg hcut, ih]
    rfl

theorem cutAtBars_cells (hne : cells ≠ []) (h : ∀ s ∈ cells, ∀ e, Unbarred e s.toList) :
    cutAtBars false (' ' :: ((" | ".intercalate cells).toList ++ [' ', '|'])) =
      cells.map (fun s => ' ' :: (s.toList ++ [' '])) ++ [[]] := by
  induction cells with
  | nil => exact absurd rfl hne
  | cons s rest ih =>
    rw [List.forall_mem_cons] at h
    have hfirst : Unbarred false (' ' :: s.toList) := .cons (fun h => absurd h (by decide)) (h.1 _)
    cases rest with
    | nil =>
      rw [String.intercalate_singleton, ← List.cons_append, cutAtBars_append hfirst []]
      rfl
    | cons t rest =>
      have hchars : ' ' :: ((" | ".intercalate (s :: t :: rest)).toList ++ [' ', '|']) =
          (' ' :: s.toList) ++ ' ' :: '|' ::
            (' ' :: ((" | ".intercalate (t :: rest)).toList ++ [' ', '|'])) := by
        simp [String.intercalate_cons_cons]
      rw [hchars, cutAtBars_append hfirst, ih (by simp) h.2]
      rfl

theorem cellsOf_row (hne : cells ≠ []) (h : ∀ s ∈ cells, ∀ e, Unbarred e s.toList) :
    cellsOf (row cells) = some (cells.map fun s => ' ' :: (s.toList ++ [' '])) := by
  have hcut : cutAtBars false (row cells).toList =
      [] :: (cells.map (fun s => ' ' :: (s.toList ++ [' '])) ++ [[]]) := by
    rw [toList_row, cutAtBars, if_pos ⟨rfl, rfl⟩, cutAtBars_cells hne h]
  rw [cellsOf, hcut]
  simp

/-- A row is read back cell by cell. -/
theorem readRow_row (hne : cells ≠ []) (h : ∀ s ∈ cells, ∀ e, Unbarred e s.toList) :
    readRow (row cells) = some (cells.map fun s => String.ofList (unescape s.toList)) := by
  rw [readRow, cellsOf_row hne h, Option.map_some, List.map_map]
  simp [Function.comp_def]

end Rows

/-! ## The row of a parameter -/

def Plain (s : String) : Prop :=
  '|' ∉ s.toList ∧ '\r' ∉ s.toList ∧ '\n' ∉ s.toList

instance (s : String) : Decidable (Plain s) :=
  inferInstanceAs (Decidable (_ ∧ _ ∧ _))

/-- The names and types that the parameter tables show are plain. Nothing is said of other texts. -/
structure TablesPlain (c : Command) : Prop where
  sets : ∀ s ∈ c.sets, Plain s.name ∧ ∀ t, s.derivedType = some t → Plain t
  parameters : ∀ p ∈ c.parameters,
    Plain p.name ∧ Plain p.type.display ∧ Plain p.effectiveWireName

/-- What a row says of a parameter in a set, in front of its description. -/
def leadingCells (set : String) (p : Parameter) : List String :=
  [p.name, p.type.display, code p.effectiveWireName, p.location.name, yesNo (p.isMandatoryIn set),
    yesNo (p.fromPipelineValue || p.fromPipelineByName)]

/-- A row that shows a parameter as it is used in a set, with its description in the last cell. -/
def ShowsIn (set : String) (p : Parameter) (line : String) : Prop :=
  readRow line = some (leadingCells set p ++ [blanked (p.description.getD "")])

section ParameterRow

variable {set : String} {p : Parameter} {s : String}

theorem Plain.bar (h : Plain s) : '|' ∉ s.toList :=
  h.1

theorem Plain.carriageReturn (h : Plain s) : '\r' ∉ s.toList :=
  h.2.1

theorem Plain.lineFeed (h : Plain s) : '\n' ∉ s.toList :=
  h.2.2

theorem Plain.cell_eq (h : Plain s) : cell s = s :=
  cell_eq_self h.bar h.lineFeed

theorem Plain.append {t : String} (hs : Plain s) (ht : Plain t) : Plain (s ++ t) := by
  unfold Plain
  simp only [String.toList_append, List.mem_append, not_or]
  exact ⟨⟨hs.bar, ht.bar⟩, ⟨hs.carriageReturn, ht.carriageReturn⟩, hs.lineFeed, ht.lineFeed⟩

theorem Plain.code (h : Plain s) : Plain (code s) :=
  ((by decide : Plain "`").append h).append (by decide)

theorem plain_yesNo (b : Bool) : Plain (yesNo b) := by
  cases b <;> decide

theorem plain_location (location : ParameterLocation) : Plain location.name := by
  cases location <;> decide

variable (name : Plain p.name) (type : Plain p.type.display) (wire : Plain p.effectiveWireName)
include name type wire

omit name in
theorem parameterRow_eq : parameterRow set p =
    row (leadingCells set p ++ [cell (p.description.getD "")]) := by
  rw [parameterRow, type.cell_eq, wire.cell_eq]
  rfl

theorem plain_leadingCells : ∀ s ∈ leadingCells set p, Plain s := by
  simp only [leadingCells, List.forall_mem_cons]
  exact ⟨name, type, wire.code, plain_location _, plain_yesNo _, plain_yesNo _, by simp⟩

theorem showsIn_parameterRow : ShowsIn set p (parameterRow set p) := by
  have hplain : ∀ s ∈ leadingCells set p, Plain s := plain_leadingCells name type wire
  have hread : ∀ s ∈ leadingCells set p, String.ofList (unescape s.toList) = id s := by
    intro s hs
    rw [unescape_of_not_mem (hplain s hs).bar, String.ofList_toList, id]
  have hcells : ∀ s ∈ leadingCells set p ++ [cell (p.description.getD "")],
      ∀ e, Unbarred e s.toList := by
    rw [List.forall_mem_append, List.forall_mem_singleton]
    exact ⟨fun s hs e => unbarred_of_not_mem (hplain s hs).bar,
      unbarred_cell (p.description.getD "")⟩
  rw [ShowsIn, parameterRow_eq type wire, readRow_row (by simp) hcells, List.map_append,
    List.map_congr_left hread, List.map_id, List.map_singleton, unescape_cell,
    String.ofList_toList]

theorem lineFeed_not_mem_parameterRow : '\n' ∉ (parameterRow set p).toList := by
  rw [parameterRow_eq type wire, mem_row_iff (by decide)]
  rintro ⟨s, hs, hmem⟩
  rcases List.mem_append.1 hs with hs | hs
  · exact (plain_leadingCells name type wire s hs).lineFeed hmem
  · rw [List.mem_singleton.1 hs] at hmem
    exact lineFeed_not_mem_cell _ hmem

/-- Of the line breaks, a carriage return in the description is left in the row. -/
theorem carriageReturn_mem_parameterRow_iff :
    '\r' ∈ (parameterRow set p).toList ↔ '\r' ∈ (p.description.getD "").toList := by
  have hcell : '\r' ∈ (cell (p.description.getD "")).toList ↔ _ := mem_cell_iff (by decide)
  rw [parameterRow_eq type wire, mem_row_iff (by decide), ← hcell]
  constructor
  · rintro ⟨s, hs, hmem⟩
    rcases List.mem_append.1 hs with hs | hs
    · exact absurd hmem (plain_leadingCells name type wire s hs).carriageReturn
    · rwa [List.mem_singleton.1 hs] at hmem
  · exact fun hmem => ⟨_, by simp, hmem⟩

end ParameterRow

/-! ## The lines of a page -/

section Lines

variable {l : String} {ls front back : List String}

theorem linesOf_lines_cons (l : String) (ls : List String) :
    linesOf (lines (l :: ls)) = linesOf l ++ linesOf (lines ls) := by
  have hchars : (lines (l :: ls)).toList = l.toList ++ '\n' :: (lines ls).toList := by
    simp [toList_lines]
  rw [linesOf, hchars, List.splitOn_append_cons_self, List.map_append]
  rfl

theorem linesOf_lines (h : ∀ l ∈ ls, '\n' ∉ l.toList) : linesOf (lines ls) = ls ++ [""] := by
  induction ls with
  | nil => rfl
  | cons l ls ih =>
    rw [List.forall_mem_cons] at h
    rw [linesOf_lines_cons, ih h.2, linesOf, List.splitOn_eq_singleton h.1, List.map_singleton,
      String.ofList_toList]
    rfl

/-- Whatever lines stand in front, the ones behind them are found. -/
theorem exists_linesOf_lines_append (front : List String) (h : ∀ l ∈ back, '\n' ∉ l.toList) :
    ∃ before, linesOf (lines (front ++ back)) = before ++ (back ++ [""]) := by
  induction front with
  | nil => exact ⟨[], linesOf_lines h⟩
  | cons l front ih =>
    obtain ⟨before, hbefore⟩ := ih
    refine ⟨linesOf l ++ before, ?_⟩
    rw [List.cons_append, linesOf_lines_cons, hbefore, List.append_assoc]

theorem rtakeWhile_append_cons {x : String} (h : ∀ l ∈ back, l ≠ x) :
    (front ++ x :: back).rtakeWhile (· != x) = back := by
  have hkeep : ∀ l ∈ back.reverse, (l != x) = true := by
    intro l hl
    simpa using h l (List.mem_reverse.1 hl)
  rw [List.rtakeWhile, List.reverse_append, List.reverse_cons, List.append_assoc,
    List.takeWhile_append_of_pos hkeep]
  simp

end Lines

/-! ## The sections of a page -/

section Sections

variable {c : Command} {s : ParameterSet} {l : String}

def setTitle (s : ParameterSet) : String :=
  "### " ++ s.name ++ (if s.isDefault then " (default)" else "")

/-- The lines between the title of a set and its table. -/
def setNote (s : ParameterSet) : List String :=
  ((filled s.derivedType).map fun t => ["", "Creates or updates a " ++ code t ++ "."]).getD [] ++
    [""]

def setRest (c : Command) (s : ParameterSet) : List String :=
  setNote s ++ (parameterTable s.name (c.parametersIn s.name) ++ [""])

theorem setSection_eq (c : Command) (s : ParameterSet) :
    setSection c s = "" :: setTitle s :: setRest c s := by
  simp [setSection, setTitle, setRest, setNote]

theorem isTitle_setTitle (s : ParameterSet) : isTitle (setTitle s) = true := by
  rw [isTitle, List.isPrefixOf_iff_prefix, setTitle, String.toList_append, String.toList_append,
    List.append_assoc]
  exact List.prefix_append _ _

/-- A line that starts with no hash is neither a title nor a heading. -/
theorem not_isTitle_of_head (h : l.toList.head? ≠ some '#') :
    isTitle l = false ∧ l ≠ setsHeading := by
  constructor
  · rw [isTitle, Bool.eq_false_iff, Ne, List.isPrefixOf_iff_prefix]
    rintro ⟨rest, hrest⟩
    rw [← hrest] at h
    exact h rfl
  · rintro rfl
    exact h rfl

theorem head_row (cells : List String) : (row cells).toList.head? = some '|' := by
  rw [toList_row]
  rfl

theorem row_ne_delimiterRow (cells : List String) : row cells ≠ delimiterRow := by
  intro h
  have hchars : ['|', ' '] = delimiterRow.toList.take 2 := by
    rw [← h, toList_row]
    rfl
  revert hchars
  decide

theorem head_setNote (h : l ∈ setNote s) :
    l.toList.head? ≠ some '#' ∧ l.toList.head? ≠ some '|' := by
  have hnote : ∀ t, (("Creates or updates a " ++ code t ++ ".").toList).head? = some 'C' := by
    intro t
    rw [String.toList_append, String.toList_append]
    rfl
  unfold setNote at h
  rw [List.mem_append, List.mem_singleton] at h
  rcases h with h | rfl
  · cases hfilled : filled s.derivedType with
    | none => simp [hfilled] at h
    | some t =>
      simp only [hfilled, Option.map_some, Option.getD_some, List.mem_cons, List.not_mem_nil,
        or_false] at h
      rcases h with rfl | rfl
      · decide
      · rw [hnote]
        decide
  · decide

/-- The lines of a table start with a bar, but for the one that stands for a table without rows. -/
theorem head_parameterTable {set : String} {parameters : List Parameter}
    (h : l ∈ parameterTable set parameters) :
    l.toList.head? = some '|' ∨ l = "No parameters." := by
  unfold parameterTable at h
  split at h
  · exact .inr (List.mem_singleton.1 h)
  · simp only [List.mem_cons, List.mem_map] at h
    rcases h with rfl | rfl | ⟨p, -, rfl⟩
    · exact .inl (head_row _)
    · exact .inl rfl
    · exact .inl (head_row _)

theorem head_setRest (h : l ∈ setRest c s) : l.toList.head? ≠ some '#' := by
  rcases List.mem_append.1 h with h | h
  · exact (head_setNote h).1
  · rcases List.mem_append.1 h with h | h
    · rcases head_parameterTable h with hhead | rfl
      · rw [hhead]
        decide
      · decide
    · rw [List.mem_singleton.1 h]
      decide

/-- The rows of the table are found behind the title of their set. -/
theorem tableRows_setRest {more : List String} (hmore : ∀ l ∈ more, l = "") :
    tableRows (setRest c s ++ more) = (c.parametersIn s.name).map (parameterRow s.name) := by
  have hdelimiter : ∀ l : String, l.toList.head? ≠ some '|' → (l != delimiterRow) = true := by
    intro l hl
    rw [bne_iff_ne]
    rintro rfl
    exact hl rfl
  have hnote : ∀ l ∈ setNote s, (l != delimiterRow) = true :=
    fun l hl => hdelimiter l (head_setNote hl).2
  unfold tableRows setRest parameterTable
  split
  · rename_i hempty
    have hnone : ∀ l ∈ setNote s ++ (["No parameters."] ++ [""]) ++ more,
        (l != delimiterRow) = true := by
      simp only [List.forall_mem_append, List.forall_mem_singleton]
      refine ⟨⟨hnote, by decide, by decide⟩, fun l hl => ?_⟩
      rw [hmore l hl]
      decide
    rw [List.dropWhile_eq_nil_iff.2 hnone, List.isEmpty_iff.1 hempty]
    rfl
  · have hhead : ∀ l ∈ setNote s ++ [row ["Name", "Type", "Sent as", "Location", "Mandatory",
        "Pipeline", "Description"]], (l != delimiterRow) = true := by
      rw [List.forall_mem_append, List.forall_mem_singleton]
      exact ⟨hnote, bne_iff_ne.2 (row_ne_delimiterRow _)⟩
    have hrows : ∀ l ∈ (c.parametersIn s.name).map (parameterRow s.name),
        (l.toList.head? == some '|') = true := by
      intro l hl
      obtain ⟨p, -, rfl⟩ := List.mem_map.1 hl
      rw [parameterRow, head_row]
      rfl
    have hlines : ∀ rows : List String, setNote s ++ (row ["Name", "Type", "Sent as", "Location",
        "Mandatory", "Pipeline", "Description"] :: "|---|---|---|---|---|---|---|" :: rows ++
          [""]) ++ more = (setNote s ++ [row ["Name", "Type", "Sent as", "Location", "Mandatory",
            "Pipeline", "Description"]]) ++ delimiterRow :: (rows ++ "" :: more) := by
      intro rows
      simp [delimiterRow]
    rw [hlines, List.dropWhile_append_of_pos hhead, List.dropWhile_cons_of_neg (by simp),
      List.drop_one, List.tail_cons, List.takeWhile_append_of_pos hrows]
    simp

theorem sections_append {front back : List String} (h : ∀ l ∈ front, isTitle l = false) :
    sections (front ++ back) = sections back := by
  induction front with
  | nil => rfl
  | cons l front ih =>
    rw [List.forall_mem_cons] at h
    rw [List.cons_append, sections, h.1, if_neg Bool.false_ne_true, ih h.2]

/-- The sections of the sets, each with nothing but empty lines behind its own. -/
theorem tables_of_sections (sets : List ParameterSet) :
    (sections (sets.flatMap (setSection c) ++ ["", ""])).map (fun part =>
        (part.1, tableRows part.2)) =
      sets.map fun s => (setTitle s, (c.parametersIn s.name).map (parameterRow s.name)) := by
  induction sets with
  | nil => rfl
  | cons s rest ih =>
    have hrest : ∀ l ∈ setRest c s, isTitle l = false :=
      fun l hl => (not_isTitle_of_head (head_setRest hl)).1
    have hkeep : ∀ l ∈ setRest c s, (!isTitle l) = true := fun l hl => by rw [hrest l hl]; rfl
    have hmore : ∀ l ∈ (rest.flatMap (setSection c) ++ ["", ""]).takeWhile (!isTitle ·),
        l = "" := by
      cases rest with
      | nil =>
        intro l hl
        simpa using (List.takeWhile_prefix _).subset hl
      | cons t rest =>
        have hempty : (!isTitle "") = true := by decide
        have htitle : (!isTitle (setTitle t)) = false := by rw [isTitle_setTitle]; rfl
        intro l hl
        rw [List.flatMap_cons, setSection_eq, List.append_assoc, List.cons_append,
          List.cons_append, List.takeWhile_cons, if_pos hempty, List.takeWhile_cons, htitle] at hl
        exact List.mem_singleton.1 hl
    rw [List.flatMap_cons, setSection_eq, List.append_assoc, List.cons_append, List.cons_append,
      sections, if_neg (by decide), sections, if_pos (isTitle_setTitle s),
      List.takeWhile_append_of_pos hkeep, sections_append hrest, List.map_cons, ih,
      tableRows_setRest hmore, List.map_cons]

theorem page_eq_lines (c : Command) : ∃ front,
    page c = lines (front ++ setsHeading :: (c.sets.flatMap (setSection c) ++ [""])) := by
  refine ⟨["# " ++ c.name.full, "", c.summary] ++
    ((filled c.description).map fun d => ["", d]).getD [] ++
    ["", "| | |", "|---|---|"] ++ overview c ++ [""], ?_⟩
  rw [page]
  congr 1
  simp [setsHeading]

end Sections

/-! ## The tables of a page -/

section Tables

variable {c : Command} {s : ParameterSet}

theorem TablesPlain.inSet (h : TablesPlain c) {set : String} {p : Parameter}
    (hp : p ∈ c.parametersIn set) :
    Plain p.name ∧ Plain p.type.display ∧ Plain p.effectiveWireName :=
  h.parameters p (List.mem_of_mem_filter hp)

theorem lineFeed_not_mem_setSection (h : TablesPlain c) (hs : s ∈ c.sets) :
    ∀ l ∈ setSection c s, '\n' ∉ l.toList := by
  obtain ⟨hname, hderived⟩ := h.sets s hs
  have htitle : Plain (setTitle s) := by
    have hmark : Plain "### " := by decide
    refine (hmark.append hname).append ?_
    split <;> decide
  have hnote : ∀ l ∈ setNote s, '\n' ∉ l.toList := by
    unfold setNote
    rw [List.forall_mem_append, List.forall_mem_singleton]
    refine ⟨?_, by decide⟩
    cases hfilled : filled s.derivedType with
    | none => simp
    | some t =>
      have hmark : Plain "Creates or updates a " := by decide
      have hline : Plain ("Creates or updates a " ++ code t ++ ".") :=
        (hmark.append (hderived t (eq_some_of_filled hfilled)).code).append (by decide)
      simp only [Option.map_some, Option.getD_some, List.forall_mem_cons]
      exact ⟨by decide, hline.lineFeed, by simp⟩
  have htable : ∀ l ∈ parameterTable s.name (c.parametersIn s.name), '\n' ∉ l.toList := by
    unfold parameterTable
    split
    · decide
    · rw [List.forall_mem_cons, List.forall_mem_cons]
      refine ⟨?_, by decide, fun l hl => ?_⟩
      · rw [mem_row_iff (by decide)]
        decide
      obtain ⟨p, hp, rfl⟩ := List.mem_map.1 hl
      obtain ⟨hname, htype, hwire⟩ := h.inSet hp
      exact lineFeed_not_mem_parameterRow hname htype hwire
  rw [setSection_eq, List.forall_mem_cons, List.forall_mem_cons, setRest, List.forall_mem_append,
    List.forall_mem_append, List.forall_mem_singleton]
  exact ⟨by decide, htitle.lineFeed, hnote, htable, by decide⟩

/-- The tables of a page have a row for each parameter of their set. -/
theorem tables_page (h : TablesPlain c) : tables (page c) =
    c.sets.map fun s => (setTitle s, (c.parametersIn s.name).map (parameterRow s.name)) := by
  have hlines : ∀ l ∈ c.sets.flatMap (setSection c) ++ [""], '\n' ∉ l.toList := by
    rw [List.forall_mem_append, List.forall_mem_singleton]
    refine ⟨fun l hl => ?_, by decide⟩
    obtain ⟨s, hs, hl⟩ := List.mem_flatMap.1 hl
    exact lineFeed_not_mem_setSection h hs l hl
  have hheading : ∀ l ∈ c.sets.flatMap (setSection c) ++ ["", ""], l ≠ setsHeading := by
    rw [List.forall_mem_append]
    refine ⟨fun l hl => ?_, by decide⟩
    obtain ⟨s, hs, hl⟩ := List.mem_flatMap.1 hl
    rw [setSection_eq, List.mem_cons, List.mem_cons] at hl
    rcases hl with rfl | rfl | hl
    · decide
    · intro heq
      have htitle := isTitle_setTitle s
      rw [heq] at htitle
      revert htitle
      decide
    · exact (not_isTitle_of_head (head_setRest hl)).2
  obtain ⟨front, hpage⟩ := page_eq_lines c
  have hunbroken : ∀ l ∈ setsHeading :: (c.sets.flatMap (setSection c) ++ [""]),
      '\n' ∉ l.toList := List.forall_mem_cons.2 ⟨by decide, hlines⟩
  obtain ⟨before, hbefore⟩ := exists_linesOf_lines_append front hunbroken
  have hbody : setsHeading :: (c.sets.flatMap (setSection c) ++ [""]) ++ [""] =
      setsHeading :: (c.sets.flatMap (setSection c) ++ ["", ""]) := by simp
  rw [tables, hpage, hbefore, hbody, rtakeWhile_append_cons hheading, tables_of_sections]

/-- The page of a command shows its sets in order, each with a table of one row of seven cells for
each of its parameters, in order. -/
structure Tabulated (c : Command) : Prop where
  shown : List.Forall₂ (fun s table => table.1 = setTitle s ∧
    List.Forall₂ (ShowsIn s.name) (c.parametersIn s.name) table.2) c.sets (tables (page c))
  cells : ∀ table ∈ tables (page c), ∀ line ∈ table.2,
    ∃ cells, cellsOf line = some cells ∧ cells.length = 7

/-- No row of a table has a line break in it. -/
def Unbroken (c : Command) : Prop :=
  ∀ table ∈ tables (page c), ∀ line ∈ table.2, '\n' ∉ line.toList ∧ '\r' ∉ line.toList

theorem ShowsIn.cells {set : String} {p : Parameter} {line : String} (h : ShowsIn set p line) :
    ∃ cells, cellsOf line = some cells ∧ cells.length = 7 := by
  obtain ⟨cells, hcells, htexts⟩ := Option.map_eq_some_iff.1 h
  refine ⟨cells, hcells, ?_⟩
  have hlength := congrArg List.length htexts
  rwa [List.length_map] at hlength

/-- Where names and types are plain, the tables of a page have one row of seven cells for each
parameter of their set, in order, whatever its description and the texts above the sets are. No
row has a line break in it just when no description of these parameters has a carriage return. -/
theorem tabulated_of_tablesPlain (c : Command) (plain : TablesPlain c) :
    Tabulated c ∧
      (Unbroken c ↔ ∀ s ∈ c.sets, ∀ p ∈ c.parametersIn s.name,
        '\r' ∉ (p.description.getD "").toList) := by
  have shows : ∀ set, ∀ p ∈ c.parametersIn set, ShowsIn set p (parameterRow set p) := by
    intro set p hp
    obtain ⟨hname, htype, hwire⟩ := plain.inSet hp
    exact showsIn_parameterRow hname htype hwire
  have rows : ∀ table ∈ tables (page c), ∀ line ∈ table.2,
      ∃ s ∈ c.sets, ∃ p ∈ c.parametersIn s.name, line = parameterRow s.name p := by
    rw [tables_page plain]
    intro table htable line hline
    obtain ⟨s, hs, rfl⟩ := List.mem_map.1 htable
    obtain ⟨p, hp, rfl⟩ := List.mem_map.1 hline
    exact ⟨s, hs, p, hp, rfl⟩
  refine ⟨⟨?_, fun table htable line hline => ?_⟩, ⟨fun h s hs p hp => ?_, fun h => ?_⟩⟩
  · rw [tables_page plain, List.forall₂_map_right_iff, List.forall₂_same]
    refine fun s _ => ⟨rfl, ?_⟩
    rw [List.forall₂_map_right_iff, List.forall₂_same]
    exact shows s.name
  · obtain ⟨s, _, p, hp, rfl⟩ := rows table htable line hline
    exact (shows s.name p hp).cells
  · obtain ⟨hname, htype, hwire⟩ := plain.inSet hp
    have hrow : '\r' ∈ (parameterRow s.name p).toList ↔ _ :=
      carriageReturn_mem_parameterRow_iff hname htype hwire
    rw [← hrow]
    refine (h (setTitle s, (c.parametersIn s.name).map (parameterRow s.name)) ?_ _ ?_).2
    · rw [tables_page plain]
      exact List.mem_map_of_mem hs
    · exact List.mem_map_of_mem hp
  · intro table htable line hline
    obtain ⟨s, hs, p, hp, rfl⟩ := rows table htable line hline
    obtain ⟨hname, htype, hwire⟩ := plain.inSet hp
    exact ⟨lineFeed_not_mem_parameterRow hname htype hwire, fun hmem =>
      h s hs p hp ((carriageReturn_mem_parameterRow_iff hname htype hwire).1 hmem)⟩

/-- A command with one parameter, described by some text. -/
def described (text : String) : Command where
  name := ⟨.new, "Item"⟩
  operation := .post
  httpMethod := .post
  urlTemplate := "item"
  route := "item"
  sets := [{ name := "Item", isDefault := true, derivedType := some "shop.Item" }]
  parameters := [{
    name := "Title"
    wireName := some "title"
    type := .primitive .string
    location := .body
    fromPipelineByName := true
    membership := .only (.ofList ["Item"])
    description := some text }]

theorem tablesPlain_described (text : String) : TablesPlain (described text) := by
  refine ⟨?_, ?_⟩
  · intro s hs
    rw [described, List.mem_singleton] at hs
    subst hs
    refine ⟨by decide, fun t ht => ?_⟩
    cases ht
    decide
  · intro p hp
    rw [described, List.mem_singleton] at hp
    subst hp
    exact ⟨(by decide : Plain "Title"), (by decide : Plain "Edm.String"),
      (by decide : Plain "title")⟩

/-- A description with a bar, an escaped bar and a line break makes one row of seven cells. -/
theorem tabulated_described :
    TablesPlain (described "First|last\\|both\nor none\\") ∧
      Tabulated (described "First|last\\|both\nor none\\") ∧
      Unbroken (described "First|last\\|both\nor none\\") ∧
      tables (page (described "First|last\\|both\nor none\\")) =
        [("### Item (default)",
          ["| Title | Edm.String | `title` | Body | no | yes | " ++
            "First\\|last\\\\|both or none\\ |"])] := by
  have plain := tablesPlain_described "First|last\\|both\nor none\\"
  obtain ⟨htabulated, hunbroken⟩ :=
    tabulated_of_tablesPlain (described "First|last\\|both\nor none\\") plain
  refine ⟨plain, htabulated, hunbroken.2 (by decide +kernel), ?_⟩
  rw [tables_page plain]
  decide +kernel

/-- A carriage return in a description stays in its row. -/
theorem not_unbroken_described :
    TablesPlain (described "The title.\rAs printed.") ∧
      tables (page (described "The title.\rAs printed.")) =
        [("### Item (default)",
          ["| Title | Edm.String | `title` | Body | no | yes | The title.\rAs printed. |"])] ∧
      ¬ Unbroken (described "The title.\rAs printed.") := by
  have plain := tablesPlain_described "The title.\rAs printed."
  have htables : tables (page (described "The title.\rAs printed.")) =
      [("### Item (default)",
        ["| Title | Edm.String | `title` | Body | no | yes | The title.\rAs printed. |"])] := by
    rw [tables_page plain]
    decide +kernel
  refine ⟨plain, htables, fun h => ?_⟩
  rw [Unbroken, htables] at h
  revert h
  decide +kernel

end Tables

end Emission
end EdmCommands
