import Ownly.Lib.Lines
import Ownly.Sheets.Pasting
import Mathlib

-- csv-import.ts: a sheet from comma-separated text, and which matrices of texts it gives
-- back as they were written.
namespace Ownly.Sheets
open Collab (Text)
open List

def parseFrom (current : Text) (inQuotes : Bool) : Text → List Text
  | [] => [current]
  | char :: rest =>
    if char = '"' then
      if inQuotes = true ∧ rest.head? = some '"' then parseFrom (current ++ ['"']) true rest.tail
      else parseFrom current (!inQuotes) rest
    else if char = ',' ∧ inQuotes = false then current :: parseFrom [] false rest
    else parseFrom (current ++ [char]) inQuotes rest
termination_by text => text.length
decreasing_by all_goals simp only [length_cons,length_tail]; omega

def parseCsvLine (line : Text) : List Text := parseFrom [] false line

def cellFromText (env : Env) (text : Text) : SheetCell :=
  {emptySheetCell with
    value := valueOfText env (trim text)
    display := env.formatCellDisplay (valueOfText env (trim text)) (textOf "general") none}

def csvLines (text : Text) : List Text := ((trim (normalizeNewlines text)).splitOn '\n').filter (fun line => decide (line ≠ []))

-- `lines[0]?.includes("\t") && !lines[0]?.includes(",")`
def tabbed (lines : List Text) : Bool :=
  match lines.head? with
  | some line => line.contains '\t' && !line.contains ','
  | none => false

def csvFields (text : Text) : List (List Text) :=
  (csvLines text).map (fun line => if tabbed (csvLines text) then line.splitOn '\t' else parseCsvLine line)

def csvTextToSheet (env : Env) (text sheetName : Text) : SheetData :=
  let rows := (csvFields text).map (List.map (cellFromText env))
  normalizeSheetGrid ⟨sheetName,if rows = [] then [[emptySheetCell]] else rows,none,none,none,[]⟩

-- The writing that the import undoes: commas, quotes and line breaks are wrapped in quotes.
def special (c : Char) : Bool := ['"',',','\n','\r'].contains c

def doubled (field : Text) : Text := field.flatMap (fun c => if c = '"' then ['"','"'] else [c])

def csvField (field : Text) : Text := if field.any special then '"' :: (doubled field ++ ['"']) else field

def csvLine (row : List Text) : Text := [','].intercalate (row.map csvField)

def lineBreak (crlf : Bool) : Text := if crlf then ['\r','\n'] else ['\n']

def csvText (crlf : Bool) (rows : List (List Text)) : Text := (lineBreak crlf).intercalate (rows.map csvLine)

section
variable {current field line rest text : Text} {inQuotes : Bool} {c : Char} {row : List Text} {rows : List (List Text)}

theorem parseFrom_quote (current rest : Text) : parseFrom current false ('"' :: rest) = parseFrom current true rest := by
  rw [parseFrom,if_pos rfl,if_neg (fun both => Bool.false_ne_true both.1)]
  rfl

theorem parseFrom_doubled (current rest : Text) : parseFrom current true ('"' :: '"' :: rest) = parseFrom (current ++ ['"']) true rest := by
  rw [parseFrom,if_pos rfl,if_pos ⟨rfl,rfl⟩]
  rfl

theorem parseFrom_unquote (current : Text) (single : rest.head? ≠ some '"') :
    parseFrom current true ('"' :: rest) = parseFrom current false rest := by
  rw [parseFrom,if_pos rfl,if_neg (fun both => single both.2)]
  rfl

theorem parseFrom_comma (current rest : Text) : parseFrom current false (',' :: rest) = current :: parseFrom [] false rest := by
  rw [parseFrom,if_neg (by decide),if_pos ⟨rfl,rfl⟩]

theorem parseFrom_plain (current rest : Text) (quote : c ≠ '"') (comma : c = ',' → inQuotes = true) :
    parseFrom current inQuotes (c :: rest) = parseFrom (current ++ [c]) inQuotes rest := by
  rw [parseFrom,if_neg quote,if_neg]
  rintro ⟨here,outside⟩
  rw [comma here] at outside
  cases outside

theorem parseFrom_field (current rest : Text) (plain : ∀ c ∈ field, c ≠ '"' ∧ c ≠ ',') :
    parseFrom current false (field ++ rest) = parseFrom (current ++ field) false rest := by
  induction field generalizing current with
  | nil => rw [nil_append,append_nil]
  | cons c field ih =>
    obtain ⟨quote,comma⟩ := plain c mem_cons_self
    rw [cons_append,parseFrom_plain current _ quote (fun here => absurd here comma),
      ih (current ++ [c]) (fun d member => plain d (mem_cons_of_mem _ member)),append_assoc,singleton_append]

theorem parseFrom_inner (current field : Text) (single : rest.head? ≠ some '"') :
    parseFrom current true (doubled field ++ '"' :: rest) = parseFrom (current ++ field) false rest := by
  induction field generalizing current with
  | nil => rw [append_nil]; exact parseFrom_unquote current single
  | cons c field ih =>
    rw [doubled,flatMap_cons,← doubled]
    by_cases quote : c = '"'
    · subst c
      rw [if_pos rfl]
      refine (parseFrom_doubled current _).trans ((ih (current ++ ['"'])).trans ?_)
      rw [append_assoc,singleton_append]
    · rw [if_neg quote]
      refine (parseFrom_plain current _ quote (fun _ => rfl)).trans ((ih (current ++ [c])).trans ?_)
      rw [append_assoc,singleton_append]

-- A written field reads as the field, whatever is in it.
theorem parseFrom_csvField (field : Text) (single : rest.head? ≠ some '"') :
    parseFrom [] false (csvField field ++ rest) = parseFrom field false rest := by
  rw [csvField]
  split
  · rw [cons_append,append_assoc,singleton_append,parseFrom_quote]
    exact parseFrom_inner [] field single
  · rename_i none_
    refine parseFrom_field [] rest (fun c member => ?_)
    have plain : special c ≠ true := fun found => none_ (any_eq_true.mpr ⟨c,member,found⟩)
    constructor
    · rintro rfl
      exact plain rfl
    · rintro rfl
      exact plain rfl

theorem parseCsvLine_csvLine (some_ : row ≠ []) : parseCsvLine (csvLine row) = row := by
  rw [parseCsvLine]
  induction row with
  | nil => exact absurd rfl some_
  | cons field more ih =>
    cases more with
    | nil =>
      have whole : csvLine [field] = csvField field ++ [] := by simp [csvLine]
      rw [whole,parseFrom_csvField field (by simp),parseFrom]
    | cons next more =>
      have whole : csvLine (field :: next :: more) = csvField field ++ ',' :: csvLine (next :: more) := by
        simp [csvLine,intercalate_cons_cons]
      rw [whole,parseFrom_csvField field (by simp),parseFrom_comma,ih (by simp)]

def total (fields : List Text) : Nat := (fields.map List.length).sum

theorem total_current (current current' line : Text) (inQuotes : Bool) :
    total (parseFrom current inQuotes line) + current'.length = total (parseFrom current' inQuotes line) + current.length := by
  induction length : line.length using Nat.strong_induction_on generalizing line current current' inQuotes with
  | _ n ih =>
    subst length
    cases line with
    | nil => simp [parseFrom,total,Nat.add_comm]
    | cons c rest =>
      rw [parseFrom,parseFrom]
      split
      · split
        · have shorter : rest.tail.length < (c :: rest).length := by
            rw [length_tail,length_cons]
            omega
          have same := ih rest.tail.length shorter (current ++ ['"']) (current' ++ ['"']) rest.tail true rfl
          simp only [length_append,length_singleton] at same
          omega
        · exact ih rest.length (by simp) current current' rest _ rfl
      · split
        · simp only [total,map_cons,sum_cons]
          omega
        · have same := ih rest.length (by simp) (current ++ [c]) (current' ++ [c]) rest inQuotes rfl
          simp only [length_append,length_singleton] at same
          omega

theorem total_first (quote : c ≠ '"') (comma : c ≠ ',') (line : Text) :
    total (parseCsvLine (c :: line)) = total (parseCsvLine line) + 1 := by
  have same := total_current ([] ++ [c]) [] line false
  rw [parseCsvLine,parseFrom_plain [] line quote (fun here => absurd here comma),parseCsvLine]
  simpa using same

theorem total_last (quote : c ≠ '"') (comma : c ≠ ',') (current line : Text) (inQuotes : Bool) :
    total (parseFrom current inQuotes (line ++ [c])) = total (parseFrom current inQuotes line) + 1 := by
  fun_induction parseFrom current inQuotes line with
  | case1 current inQuotes =>
    rw [nil_append,parseFrom_plain current [] quote (fun here => absurd here comma),parseFrom]
    simp [total]
  | case2 current inQuotes rest both ih =>
    obtain ⟨more,rfl⟩ : ∃ more, rest = '"' :: more := by
      cases rest with
      | nil => cases both.2
      | cons d more => exact ⟨more,by rw [Option.some.inj both.2]⟩
    obtain rfl := both.1
    rw [cons_append,cons_append,parseFrom_doubled]
    exact ih
  | case3 current inQuotes rest single ih =>
    have still : ¬(inQuotes = true ∧ (rest ++ [c]).head? = some '"') := by
      rintro ⟨inside,next⟩
      cases rest with
      | nil => exact quote (Option.some.inj next)
      | cons d more => exact single ⟨inside,next⟩
    rw [cons_append,parseFrom,if_pos rfl,if_neg still]
    exact ih
  | case4 current inQuotes char rest other both ih =>
    rw [cons_append,parseFrom,if_neg other,if_pos both]
    simp only [total,map_cons,sum_cons] at ih ⊢
    omega
  | case5 current inQuotes char rest other plain ih =>
    rw [cons_append,parseFrom,if_neg other,if_neg plain]
    exact ih

theorem space_plain (space : isSpace c = true) : c ≠ '"' ∧ c ≠ ',' := by
  constructor
  · rintro rfl
    cases space
  · rintro rfl
    cases space

theorem parse_wraps {part : Text} (wraps : Lines.Wraps isSpace line part) (same : parseCsvLine line = parseCsvLine part) : line = part := by
  obtain ⟨front,back,frontSpace,backSpace,rfl⟩ := wraps
  have behind : ∀ back : Text, (∀ c ∈ back, isSpace c = true) → ∀ line, total (parseCsvLine (line ++ back)) = total (parseCsvLine line) + back.length := by
    intro back
    induction back with
    | nil => intro _ line; rw [append_nil]; rfl
    | cons c back ih =>
      intro spaces line
      obtain ⟨quote,comma⟩ := space_plain (spaces c mem_cons_self)
      have later := ih (fun d member => spaces d (mem_cons_of_mem _ member)) (line ++ [c])
      have last : total (parseCsvLine (line ++ [c])) = total (parseCsvLine line) + 1 := total_last quote comma [] line false
      rw [append_assoc,singleton_append] at later
      rw [later,last,length_cons]
      omega
  have before : ∀ front : Text, (∀ c ∈ front, isSpace c = true) → ∀ line, total (parseCsvLine (front ++ line)) = total (parseCsvLine line) + front.length := by
    intro front
    induction front with
    | nil => intro _ line; rfl
    | cons c front ih =>
      intro spaces line
      obtain ⟨quote,comma⟩ := space_plain (spaces c mem_cons_self)
      rw [cons_append,total_first quote comma,ih (fun d member => spaces d (mem_cons_of_mem _ member)),length_cons]
      omega
  have counted := congrArg total same
  rw [behind back backSpace,before front frontSpace] at counted
  obtain rfl : front = [] := eq_nil_of_length_eq_zero (by omega)
  obtain rfl : back = [] := eq_nil_of_length_eq_zero (by omega)
  rw [nil_append,append_nil]

theorem wraps_parse {lines parts : List Text} (wraps : List.Forall₂ (Lines.Wraps isSpace) lines parts)
    (same : parts.map parseCsvLine = lines.map parseCsvLine) : lines = parts := by
  induction wraps with
  | nil => rfl
  | cons first _ ih =>
    obtain ⟨head,tail⟩ := List.cons.inj same
    rw [parse_wraps first head.symm,ih tail]

theorem parse_subset (member : field ∈ parseFrom current inQuotes line) (inside : c ∈ field) : c ∈ current ∨ c ∈ line := by
  fun_induction parseFrom current inQuotes line with
  | case1 current inQuotes =>
    obtain rfl := mem_singleton.mp member
    exact .inl inside
  | case2 current inQuotes rest both ih =>
    rcases ih member with early | late
    · rcases mem_append.mp early with before | new
      · exact .inl before
      · obtain rfl := mem_singleton.mp new
        exact .inr mem_cons_self
    · exact .inr (mem_cons_of_mem _ (mem_of_mem_tail late))
  | case3 current inQuotes rest single ih => exact (ih member).imp id (mem_cons_of_mem _)
  | case4 current inQuotes char rest other both ih =>
    rcases mem_cons.mp member with rfl | later
    · exact .inl inside
    · rcases ih later with none_ | late
      · cases none_
      · exact .inr (mem_cons_of_mem _ late)
  | case5 current inQuotes char rest other plain ih =>
    rcases ih member with early | late
    · rcases mem_append.mp early with before | new
      · exact .inl before
      · obtain rfl := mem_singleton.mp new
        exact .inr mem_cons_self
    · exact .inr (mem_cons_of_mem _ late)

theorem normalizeNewlines_return (text : Text) : '\r' ∉ normalizeNewlines text := by
  fun_induction normalizeNewlines text with
  | case1 rest ih => simpa using ih
  | case2 rest other ih => simpa using ih
  | case3 c rest other other' ih =>
    intro member
    rcases mem_cons.mp member with rfl | later
    · exact other' rfl
    · exact ih later
  | case4 => exact not_mem_nil

theorem csvFields_unbroken (member : row ∈ csvFields text) (among : field ∈ row) : '\n' ∉ field ∧ '\r' ∉ field := by
  obtain ⟨line,inLines,rfl⟩ := mem_map.mp member
  have piece : ∀ c ∈ line, c ∈ normalizeNewlines text ∧ c ≠ '\n' := by
    intro c inside
    obtain ⟨within,other⟩ := Lines.mem_splitOn (mem_filter.mp inLines).1 inside
    exact ⟨Lines.trim_subset isSpace _ within,other⟩
  have chars : ∀ c ∈ field, c ∈ line := by
    intro c inside
    split at among
    · exact (Lines.mem_splitOn among inside).1
    · rcases parse_subset among inside with none_ | within
      · cases none_
      · exact within
  exact ⟨fun broken => (piece _ (chars _ broken)).2 rfl,fun broken => normalizeNewlines_return text (piece _ (chars _ broken)).1⟩

theorem normalizeNewlines_cons (other : c ≠ '\r') (rest : Text) : normalizeNewlines (c :: rest) = c :: normalizeNewlines rest := by
  rw [normalizeNewlines]
  · exact fun _ here => absurd here other
  · exact fun here => absurd here other

theorem normalizeNewlines_append (clear : '\r' ∉ field) (rest : Text) : normalizeNewlines (field ++ rest) = field ++ normalizeNewlines rest := by
  induction field with
  | nil => rfl
  | cons c field ih =>
    rw [cons_append,normalizeNewlines_cons (fun here => clear (here ▸ mem_cons_self)),ih (fun later => clear (mem_cons_of_mem _ later))]
    rfl

theorem normalizeNewlines_lineBreak (crlf : Bool) (rest : Text) : normalizeNewlines (lineBreak crlf ++ rest) = '\n' :: normalizeNewlines rest := by
  cases crlf with
  | true => exact normalizeNewlines.eq_1 rest
  | false => exact normalizeNewlines_cons (by decide) rest

theorem normalizeNewlines_intercalate (crlf : Bool) {lines : List Text} (clear : ∀ line ∈ lines, '\r' ∉ line) :
    normalizeNewlines ((lineBreak crlf).intercalate lines) = ['\n'].intercalate lines := by
  induction lines with
  | nil => rfl
  | cons line more ih =>
    have front := clear line mem_cons_self
    have later := ih (fun other member => clear other (mem_cons_of_mem _ member))
    cases more with
    | nil =>
      have whole := normalizeNewlines_append front []
      rw [append_nil,normalizeNewlines.eq_4,append_nil] at whole
      simpa using whole
    | cons next more =>
      rw [intercalate_cons_cons,intercalate_cons_cons,append_assoc,normalizeNewlines_append front,
        normalizeNewlines_lineBreak,later,append_assoc]
      rfl

theorem mem_doubled : c ∈ doubled field ↔ c ∈ field := by
  rw [doubled,mem_flatMap]
  constructor
  · rintro ⟨d,member,inside⟩
    split at inside
    · rename_i quote
      simp only [mem_cons,not_mem_nil,or_false,or_self] at inside
      rw [inside,← quote]
      exact member
    · obtain rfl := mem_singleton.mp inside
      exact member
  · intro member
    refine ⟨c,member,?_⟩
    split
    · rename_i quote
      rw [quote]
      exact mem_cons_self
    · exact mem_singleton.mpr rfl

theorem mem_csvField (member : c ∈ csvField field) : c ∈ field ∨ c = '"' := by
  rw [csvField] at member
  split at member
  · rcases mem_cons.mp member with quote | inside
    · exact .inr quote
    · rcases mem_append.mp inside with within | quote
      · exact .inl (mem_doubled.mp within)
      · exact .inr (mem_singleton.mp quote)
  · exact .inl member

theorem mem_csvLine : c ∈ csvLine row ↔ (2 ≤ row.length ∧ c = ',') ∨ ∃ field ∈ row, c ∈ csvField field := by
  induction row with
  | nil => simp [csvLine]
  | cons field more ih =>
    cases more with
    | nil => simp [csvLine]
    | cons next more =>
      have whole : csvLine (field :: next :: more) = csvField field ++ ',' :: csvLine (next :: more) := by
        simp [csvLine,intercalate_cons_cons]
      rw [whole,mem_append,mem_cons,ih]
      simp only [length_cons]
      constructor
      · rintro (here | comma | ⟨_,comma⟩ | ⟨other,among,inside⟩)
        · exact .inr ⟨field,mem_cons_self,here⟩
        · exact .inl ⟨by omega,comma⟩
        · exact .inl ⟨by omega,comma⟩
        · exact .inr ⟨other,mem_cons_of_mem _ among,inside⟩
      · rintro (⟨_,comma⟩ | ⟨other,among,inside⟩)
        · exact .inr (.inl comma)
        · rcases mem_cons.mp among with rfl | later
          · exact .inl inside
          · exact .inr (.inr (.inr ⟨other,later,inside⟩))

theorem csvLine_clear {broken : Char} (quote : broken ≠ '"') (comma : broken ≠ ',') (clear : ∀ field ∈ row, broken ∉ field) :
    broken ∉ csvLine row := by
  intro member
  rcases mem_csvLine.mp member with ⟨_,here⟩ | ⟨field,among,inside⟩
  · exact comma here
  · rcases mem_csvField inside with within | here
    · exact clear field among within
    · exact quote here

def writtenLines (rows : List (List Text)) : List Text := (rows.map csvLine).filter (fun line => decide (line ≠ []))

def writtenRows (rows : List (List Text)) : List (List Text) := rows.filter (fun row => decide (csvLine row ≠ []))

theorem writtenLines_map (rows : List (List Text)) : writtenLines rows = (writtenRows rows).map csvLine := by
  rw [writtenLines,writtenRows,filter_map]
  rfl

theorem writtenLines_parse (rows : List (List Text)) : (writtenLines rows).map parseCsvLine = writtenRows rows := by
  rw [writtenLines_map,map_map]
  refine (map_congr_left (fun row member => ?_)).trans (map_id _)
  have written := of_decide_eq_true (mem_filter.mp member).2
  refine parseCsvLine_csvLine (fun empty => written ?_)
  rw [empty]
  rfl

structure Readable (rows : List (List Text)) : Prop where
  unbroken : ∀ row ∈ rows, ∀ field ∈ row, '\n' ∉ field ∧ '\r' ∉ field
  edges : Lines.Clean isSpace (writtenLines rows)
  detected : tabbed (writtenLines rows) = false

theorem linesOf_written (crlf : Bool) (unbroken : ∀ row ∈ rows, ∀ field ∈ row, '\n' ∉ field ∧ '\r' ∉ field) :
    Lines.linesOf '\n' (normalizeNewlines (csvText crlf rows)) = writtenLines rows := by
  have clear : ∀ line ∈ rows.map csvLine, '\n' ∉ line ∧ '\r' ∉ line := by
    intro line member
    obtain ⟨row,among,rfl⟩ := mem_map.mp member
    exact ⟨csvLine_clear (by decide) (by decide) (fun field inside => (unbroken row among field inside).1),
      csvLine_clear (by decide) (by decide) (fun field inside => (unbroken row among field inside).2)⟩
  rw [csvText,normalizeNewlines_intercalate crlf (fun line member => (clear line member).2)]
  exact Lines.linesOf_intercalate (fun line member => (clear line member).1)

theorem csvLines_linesOf (text : Text) : csvLines text = Lines.linesOf '\n' (Lines.trim isSpace (normalizeNewlines text)) := rfl

theorem fields_of_readable (crlf : Bool) (readable : Readable rows) : csvFields (csvText crlf rows) = writtenRows rows := by
  have lines : csvLines (csvText crlf rows) = writtenLines rows := by
    have written := linesOf_written crlf readable.unbroken
    rw [csvLines_linesOf,Lines.trim_clean (by rw [written]; exact readable.edges),written]
  rw [csvFields,lines,readable.detected]
  exact writtenLines_parse rows

theorem unbroken_of_fields (crlf : Bool) (same : csvFields (csvText crlf rows) = writtenRows rows) :
    ∀ row ∈ rows, ∀ field ∈ row, '\n' ∉ field ∧ '\r' ∉ field := by
  intro row member field among
  by_contra broken
  -- such a field is written in quotes, so its row is no empty line
  have quoted : '"' ∈ csvField field := by
    have found : field.any special = true := by
      by_contra none_
      refine broken ⟨fun inside => none_ ?_,fun inside => none_ ?_⟩
      · exact any_eq_true.mpr ⟨_,inside,rfl⟩
      · exact any_eq_true.mpr ⟨_,inside,rfl⟩
    rw [csvField,if_pos found]
    exact mem_cons_self
  have written : row ∈ writtenRows rows :=
    mem_filter.mpr ⟨member,decide_eq_true (ne_nil_of_mem (mem_csvLine.mpr (.inr ⟨field,among,quoted⟩)))⟩
  rw [← same] at written
  exact broken (csvFields_unbroken written among)

theorem untabbed_of_fields (same : csvFields text = writtenRows rows)
    (wraps : List.Forall₂ (Lines.Wraps isSpace) (writtenLines rows) (csvLines text)) : tabbed (csvLines text) = false := by
  by_contra tabs
  rw [Bool.not_eq_false] at tabs
  rw [csvFields,tabs] at same
  cases found : csvLines text with
  | nil => rw [found] at tabs; cases tabs
  | cons part more =>
    rw [found] at same wraps tabs
    cases rowsFound : writtenRows rows with
    | nil => rw [rowsFound] at same; cases same
    | cons row others =>
      rw [writtenLines_map,rowsFound,map_cons] at wraps
      rw [rowsFound,map_cons,if_pos rfl] at same
      obtain ⟨head,_⟩ := List.cons.inj same
      have separators : part.contains '\t' = true ∧ part.contains ',' = false := by
        simpa [tabbed] using tabs
      obtain ⟨front,back,frontSpace,backSpace,whole⟩ := (List.forall₂_cons.mp wraps).1
      have several : 2 ≤ row.length := by
        have one : 0 < part.count '\t' := count_pos_iff.mpr (contains_iff_mem.mp separators.1)
        rw [← head,length_splitOn]
        omega
      have comma : ',' ∈ front ++ part ++ back := by
        rw [← whole]
        exact mem_csvLine.mpr (.inl ⟨several,rfl⟩)
      rcases mem_append.mp comma with inside | behind
      · rcases mem_append.mp inside with before | within
        · cases frontSpace _ before
        · have holds := contains_iff_mem.mpr within
          rw [separators.2] at holds
          cases holds
      · cases backSpace _ behind

theorem readable_of_fields (crlf : Bool) (same : csvFields (csvText crlf rows) = writtenRows rows) : Readable rows := by
  have unbroken := unbroken_of_fields crlf same
  have shrinks := Lines.shrinks_trim '\n' isSpace (normalizeNewlines (csvText crlf rows))
  rw [linesOf_written crlf unbroken,← csvLines_linesOf] at shrinks
  have lengths := congrArg List.length same
  rw [csvFields,length_map,← writtenLines_parse,length_map] at lengths
  have wraps := shrinks.resolve_left (by omega)
  have comma := untabbed_of_fields same wraps
  have lines : writtenLines rows = csvLines (csvText crlf rows) := by
    refine wraps_parse wraps ?_
    rw [writtenLines_parse,← same,csvFields,comma]
    rfl
  refine ⟨unbroken,?_,?_⟩
  · rw [lines,csvLines_linesOf]
    exact Lines.trimmed_clean rfl _
  · rw [lines]
    exact comma

theorem csv_import_iff (crlf : Bool) (rows : List (List Text)) :
    csvFields (csvText crlf rows) = rows.filter (fun row => decide (csvLine row ≠ [])) ↔ Readable rows :=
  ⟨readable_of_fields crlf,fields_of_readable crlf⟩

theorem csv_import_breaks : csvFields (csvText false [["a\nb".toList]]) ≠ [["a\nb".toList]] := by
  intro same
  have unbroken : ∀ row ∈ [["a\nb".toList]], ∀ field ∈ row, '\n' ∉ field ∧ '\r' ∉ field := unbroken_of_fields false same
  exact (unbroken ["a\nb".toList] mem_cons_self "a\nb".toList mem_cons_self).1 (by decide)

end

end Ownly.Sheets
