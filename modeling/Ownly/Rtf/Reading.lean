import Ownly.Rtf.Reader

-- What the reader does on the words, the tables and the text that the writer writes.
namespace Ownly.Rtf
open JsString Loop
open List Function

variable {s t : Reader} {k rest : Str} {n : Nat} {name : Str} {word : Word}

-- A word ends before such a unit, whether or not it has a parameter.
def Ends (k : Str) : Prop := ∀ unit ∈ k.head?, ¬Letter unit ∧ ¬Digit unit ∧ unit ≠ 45

theorem ends_cons {unit : Nat} (letter : ¬Letter unit) (digit : ¬Digit unit) (sign : unit ≠ 45) : Ends (unit :: k) := by
  intro other same
  cases same
  exact ⟨letter,digit,sign⟩

theorem ends_slash : Ends (92 :: k) := ends_cons (by decide) (by decide) (by decide)

theorem ends_space : Ends (32 :: k) := ends_cons (by decide) (by decide) (by decide)

theorem ends_semicolon : Ends (59 :: k) := ends_cons (by decide) (by decide) (by decide)

theorem ends_open : Ends (123 :: k) := ends_cons (by decide) (by decide) (by decide)

theorem ends_question : Ends (63 :: k) := ends_cons (by decide) (by decide) (by decide)

def paramText : Option Int → Str
  | none => []
  | some n => decimal n

theorem parseParam_none (ends : Ends k) : parseParam k = (none,k) := by
  cases k with
  | nil => rfl
  | cons unit k =>
    obtain ⟨_,digit,sign⟩ := ends unit rfl
    unfold parseParam
    split
    · next same => cases same; exact absurd rfl sign
    · simp [takeDigits,dropDigits,digit]

theorem parseParam_digits (ends : Ends k) : parseParam (digits n ++ k) = (some (n : Int),k) := by
  have stop : ∀ unit ∈ k.head?, ¬Digit unit := fun unit member => (ends unit member).2.1
  unfold parseParam
  split
  · next rest same =>
    have head : 45 ∈ (digits n ++ k).head? := by rw [same]; rfl
    rw [head?_append_of_ne_nil _ digits_ne] at head
    exact absurd (digit_of_mem (mem_of_mem_head? head)) (by decide)
  · rw [takeDigits_digits stop,dropDigits_digits stop,if_neg digits_ne,ofDigits_digits]

theorem parseParam_text (param : Option Int) (ends : Ends k) : parseParam (paramText param ++ k) = (param,k) := by
  have stop : ∀ unit ∈ k.head?, ¬Digit unit := fun unit member => (ends unit member).2.1
  cases param with
  | none => exact parseParam_none ends
  | some n =>
    cases n with
    | ofNat n => exact parseParam_digits ends
    | negSucc n =>
      rw [paramText,decimal,cons_append,parseParam,takeDigits_digits stop,dropDigits_digits stop,if_neg digits_ne,ofDigits_digits]
      rfl

theorem param_ends (param : Option Int) (ends : Ends k) : ∀ unit ∈ (paramText param ++ k).head?, ¬Letter unit := by
  intro unit member
  cases param with
  | none => exact (ends unit member).1
  | some n =>
    cases n with
    | ofNat n =>
      rw [paramText,decimal,head?_append_of_ne_nil _ digits_ne] at member
      have digit := digit_of_mem (mem_of_mem_head? member)
      unfold Digit at digit
      unfold Letter
      omega
    | negSucc n =>
      rw [paramText,decimal] at member
      cases member
      decide

structure Spelled (word : Word) (name : Str) : Prop where
  some_ : name ≠ []
  letters : ∀ unit ∈ name, Letter unit
  small : name.map lower = name
  known : wordOf name = word

theorem parseControl_word (spelled : Spelled word name) (param : Option Int) (ends : Ends k) :
    parseControl (name ++ (paramText param ++ k)) = (name,param,skipSpace k) := by
  have stop := param_ends param ends
  obtain ⟨first,tail,rfl⟩ := exists_cons_of_ne_nil spelled.some_
  have all : ∀ unit ∈ first :: tail, decide (Letter unit) = true := fun unit member => decide_eq_true (spelled.letters unit member)
  have taken : ((first :: tail) ++ (paramText param ++ k)).takeWhile (fun unit => decide (Letter unit)) = first :: tail := by
    rw [takeWhile_append_of_pos all]
    cases next : paramText param ++ k with
    | nil => simp
    | cons unit rest => simp [stop unit (by rw [next]; rfl)]
  have left : ((first :: tail) ++ (paramText param ++ k)).dropWhile (fun unit => decide (Letter unit)) = paramText param ++ k := by
    rw [dropWhile_append_of_pos all]
    cases next : paramText param ++ k with
    | nil => rfl
    | cons unit rest => simp [stop unit (by rw [next]; rfl)]
  rw [cons_append] at taken left ⊢
  rw [parseControl,if_pos (spelled.letters first mem_cons_self)]
  simp only [taken,left,parseParam_text param ends,spelled.small]

theorem readUnit_slash {first : Nat} (quote : first ≠ 39) :
    readUnit 92 (first :: rest) s =
      { control (wordOf (parseControl (first :: rest)).1) (parseControl (first :: rest)).2.1 s with rest := (parseControl (first :: rest)).2.2 } := by
  unfold readUnit
  rw [if_neg (fun skip => skip.2.1 rfl),if_neg (by decide),if_neg (by decide),if_pos rfl]
  split
  · next same => cases same
  · next same => cases same; exact absurd rfl quote
  · rfl

theorem read_word (spelled : Spelled word name) (param : Option Int) (ends : Ends k)
    (here : s.rest = 92 :: (name ++ (paramText param ++ k))) :
    readNext s = some { control word param s with rest := skipSpace k } := by
  obtain ⟨first,tail,rfl⟩ := exists_cons_of_ne_nil spelled.some_
  have letter := spelled.letters first mem_cons_self
  have quote : first ≠ 39 := by rintro rfl; exact absurd letter (by decide)
  have parsed := parseControl_word spelled param ends
  rw [readNext,here]
  simp only [cons_append] at parsed ⊢
  rw [readUnit_slash quote,parsed,spelled.known]

theorem read_symbol {symbol : Nat} (letter : ¬Letter symbol) (quote : symbol ≠ 39) (here : s.rest = 92 :: symbol :: k) :
    readNext s = some { control (wordOf [symbol]) none s with rest := k } := by
  rw [readNext,here]
  simp only []
  rw [readUnit_slash quote,parseControl,if_neg letter]

theorem parseParam_length (text : Str) : (parseParam text).2.length ≤ text.length := by
  have dropped : ∀ text : Str, (dropDigits text).length ≤ text.length := fun text => (dropWhile_suffix _).length_le
  unfold parseParam
  split
  · next rest => exact Nat.le_succ_of_le (dropped rest)
  · exact dropped _

theorem skipSpace_length (text : Str) : (skipSpace text).length ≤ text.length := by
  unfold skipSpace
  split <;> simp

theorem parseControl_length (text : Str) : (parseControl text).2.2.length ≤ text.length := by
  cases text with
  | nil => exact Nat.le_refl _
  | cons first rest =>
    rw [parseControl]
    split
    · have dropped : ((first :: rest).dropWhile (fun unit => decide (Letter unit))).length ≤ (first :: rest).length :=
        (dropWhile_suffix _).length_le
      exact Nat.le_trans (skipSpace_length _) (Nat.le_trans (parseParam_length _) dropped)
    · exact Nat.le_succ _

theorem readUnit_length (ch : Nat) (rest : Str) (s : Reader) : (readUnit ch rest s).rest.length ≤ rest.length := by
  unfold readUnit
  split
  · exact Nat.le_refl _
  · split
    · exact Nat.le_refl _
    · split
      · exact Nat.le_refl _
      · split
        · split
          · exact Nat.le_refl _
          · next rest =>
            split <;> exact Nat.le_succ_of_le ((drop_suffix _ _).length_le)
          · exact parseControl_length _
        · exact Nat.le_refl _

theorem readNext_falls (round : readNext s = some t) : t.rest.length < s.rest.length := by
  unfold readNext at round
  split at round
  · cases round
  · next ch rest here =>
    cases round
    rw [here]
    exact Nat.lt_succ_of_le (readUnit_length ch rest s)

theorem run_read (path : Reaches readNext s t) (ended : t.rest = []) : Loop.run readNext s.rest.length s = t := by
  refine run_of_reaches readNext_falls path ?_ (Nat.le_refl _)
  rw [readNext,ended]

def writtenWords : List (String × Word) :=
  [("rtf",.other),("ansi",.other),("ansicpg",.other),("deff",.other),("fonttbl",.fonttbl),("f",.f),("fswiss",.fontClass),
    ("fcharset",.fontClass),("colortbl",.colortbl),("red",.red),("green",.green),("blue",.blue),("pard",.pard),
    ("ql",.align .left),("qc",.align .center),("qr",.align .right),("qj",.align .justify),("par",.par),("fs",.fs),("b",.b),("i",.i),
    ("ul",.ul),("ulnone",.ulnone),("strike",.strike),("super",.super),("sub",.sub),("nosupersub",.nosupersub),("cf",.cf),
    ("highlight",.highlight),("u",.u)]

theorem written_spelled : ∀ written ∈ writtenWords, str written.1 ≠ [] ∧ (∀ unit ∈ str written.1, Letter unit) ∧
    (str written.1).map lower = str written.1 ∧ wordOf (str written.1) = written.2 := by decide +kernel

def spell (name : String) (param : Option Int) : Str := 92 :: (str name ++ paramText param)

theorem read_spell {name : String} (written : (name,word) ∈ writtenWords) (param : Option Int) (ends : Ends k)
    (here : s.rest = spell name param ++ k) : Reaches readNext s { control word param s with rest := skipSpace k } := by
  obtain ⟨some_,letters,small,known⟩ := written_spelled _ written
  refine .one (read_word ⟨some_,letters,small,known⟩ param ends (here.trans ?_))
  simp [spell]

def fontTable (below : List Frame) (fonts : Int → Option Str) (current : Int) (buffer rest : Str) : Reader :=
  { rest, top := { destination := some .fonttbl }, below, fonts, inFonttbl := true, fontBuffer := buffer, currentFontIndex := current }

variable {below : List Frame} {fonts : Int → Option Str} {current : Int} {buffer : Str}

def Tame (name : Str) : Prop := ∀ unit ∈ name, unit ≠ 92 ∧ unit ≠ 123 ∧ unit ≠ 125

theorem flushed_other {index : Int} (other : index ≠ current) : flushed fonts current buffer index = fonts index := by
  unfold flushed
  split_ifs <;> first | rfl | exact update_of_ne other _ _

structure FontName (name : Str) : Prop where
  some_ : name ≠ []
  trimmed : trim name = name
  plain : ∀ unit ∈ name, unit ∉ [10,13,34,39,44,59,60,62,92,123,125]

theorem stripQuotes_plain (plain : ∀ unit ∈ name, ¬Quote unit) : stripQuotes name = name := by
  have first : ∀ unit ∈ name.head?, ¬Quote unit := fun unit member => plain unit (mem_of_mem_head? member)
  have last : ∀ unit ∈ name.getLast?, ¬Quote unit := fun unit member => plain unit (mem_of_mem_getLast? member)
  unfold stripQuotes
  rw [if_pos first]
  dsimp only
  rw [if_pos last]

theorem FontName.quotes (font : FontName name) : stripQuotes name = name := by
  refine stripQuotes_plain (fun unit member quote => font.plain unit member ?_)
  rcases quote with rfl | rfl <;> decide

theorem flushed_name (font : FontName name) : flushed fonts current name current = some name := by
  have last : name.getLast? ≠ some 59 := fun same => font.plain 59 (mem_of_getLast? same) (by decide)
  unfold flushed
  rw [if_neg last,font.trimmed,font.quotes,if_neg font.some_,if_neg font.some_,update_self]

def fontEntry (index : Nat) (name : Str) : Str :=
  str "\x7b\\f" ++ digits index ++ str "\\fswiss\\fcharset0 " ++ name ++ str ";\x7d"

theorem fontEntry_text (index : Nat) (name : Str) : fontEntry index name ++ k =
    123 :: (spell "f" (some index) ++ (spell "fswiss" none ++ (spell "fcharset" (some 0) ++ 32 :: (name ++ 59 :: 125 :: k)))) := by
  have first : str "\x7b\\f" = 123 :: 92 :: str "f" := rfl
  have classes : str "\\fswiss\\fcharset0 " = spell "fswiss" none ++ (spell "fcharset" (some 0) ++ [32]) := rfl
  have last : str ";\x7d" = [59,125] := rfl
  simp [fontEntry,first,classes,last,spell,paramText,decimal]

theorem read_name (below : List Frame) (fonts : Int → Option Str) (current : Int) (buffer k : Str) (tame : Tame name) : ∃ fonts' buffer',
    Reaches readNext (fontTable below fonts current buffer (name ++ k)) (fontTable below fonts' current buffer' k) ∧
    (∀ index, index ≠ current → fonts' index = fonts index) ∧
    ((∀ unit ∈ name, unit ≠ 59 ∧ unit ≠ 10 ∧ unit ≠ 13) → fonts' = fonts ∧ buffer' = buffer ++ name) := by
  induction name generalizing fonts buffer with
  | nil => exact ⟨fonts,buffer,.refl,fun _ _ => rfl,fun _ => ⟨rfl,(append_nil _).symm⟩⟩
  | cons unit name ih =>
    obtain ⟨slash,open_,close⟩ := tame unit mem_cons_self
    have rest : Tame name := fun unit member => tame unit (mem_cons_of_mem _ member)
    have round : readNext (fontTable below fonts current buffer (unit :: (name ++ k))) =
        some { plainUnit unit (fontTable below fonts current buffer (unit :: (name ++ k))) with rest := name ++ k } := by
      simp [readNext,readUnit,fontTable,slash,open_,close]
    by_cases line : unit = 13 ∨ unit = 10
    · have one : Reaches readNext (fontTable below fonts current buffer (unit :: (name ++ k)))
          (fontTable below fonts current buffer (name ++ k)) := by
        refine .one (round.trans ?_)
        simp [plainUnit,line,fontTable]
      obtain ⟨fonts',buffer',path,kept,clean⟩ := ih _ _ rest
      refine ⟨fonts',buffer',one.trans path,kept,fun plain => ?_⟩
      have := plain unit mem_cons_self
      omega
    · by_cases semicolon : unit = 59
      · have one : Reaches readNext (fontTable below fonts current buffer (unit :: (name ++ k)))
            (fontTable below (flushed fonts current buffer) current [] (name ++ k)) := by
          refine .one (round.trans ?_)
          simp [plainUnit,semicolon,fontTable,flushFont]
        obtain ⟨fonts',buffer',path,kept,clean⟩ := ih _ _ rest
        refine ⟨fonts',buffer',one.trans path,fun index other => (kept index other).trans (flushed_other other),fun plain => ?_⟩
        exact absurd semicolon (plain unit mem_cons_self).1
      · have one : Reaches readNext (fontTable below fonts current buffer (unit :: (name ++ k)))
            (fontTable below fonts current (buffer ++ [unit]) (name ++ k)) := by
          refine .one (round.trans ?_)
          simp [plainUnit,line,semicolon,fontTable]
        obtain ⟨fonts',buffer',path,kept,clean⟩ := ih _ _ rest
        refine ⟨fonts',buffer',one.trans path,kept,fun plain => ?_⟩
        obtain ⟨same,all⟩ := clean (fun unit member => plain unit (mem_cons_of_mem _ member))
        exact ⟨same,by simp [all]⟩

theorem spell_ends {name : String} (param : Option Int) : Ends (spell name param ++ k) := ends_slash

theorem read_f (index : Int) (ends : Ends k) :
    Reaches readNext (fontTable below fonts current [] (spell "f" (some index) ++ k))
      (fontTable below (Function.update fonts index (some ((fonts index).getD helvetica))) index [] (skipSpace k)) :=
  read_spell (show ("f",Word.f) ∈ writtenWords by decide) (some index) ends rfl

theorem read_class {name : String} (known : (name,Word.fontClass) ∈ writtenWords) (param : Option Int) (ends : Ends k) :
    Reaches readNext (fontTable below fonts current buffer (spell name param ++ k))
      (fontTable below fonts current buffer (skipSpace k)) :=
  read_spell known param ends rfl

theorem read_fontEntry (tame : Tame name) (index : Nat) : ∃ fonts',
    Reaches readNext (fontTable [{},{}] fonts current [] (fontEntry index name ++ k)) (fontTable [{},{}] fonts' index [] k) ∧
    (∀ other : Int, other ≠ index → fonts' other = fonts other) ∧ (FontName name → fonts' index = some name) := by
  obtain ⟨fonts',buffer',path,kept,clean⟩ := read_name [{ destination := some .fonttbl },{},{}]
    (Function.update fonts index (some ((fonts index).getD helvetica))) index [] (59 :: 125 :: k) tame
  refine ⟨flushed fonts' index buffer',?_,fun other ne => ?_,fun font => ?_⟩
  · rw [fontEntry_text]
    have push : Reaches readNext (fontTable [{},{}] fonts current []
        (123 :: (spell "f" (some index) ++ (spell "fswiss" none ++ (spell "fcharset" (some 0) ++ 32 :: (name ++ 59 :: 125 :: k))))))
        (fontTable [{ destination := some .fonttbl },{},{}] fonts current []
          (spell "f" (some index) ++ (spell "fswiss" none ++ (spell "fcharset" (some 0) ++ 32 :: (name ++ 59 :: 125 :: k))))) :=
      .one rfl
    have flush : Reaches readNext (fontTable [{ destination := some .fonttbl },{},{}] fonts' index buffer' (59 :: 125 :: k))
        (fontTable [{ destination := some .fonttbl },{},{}] (flushed fonts' index buffer') index [] (125 :: k)) := .one rfl
    have pop : Reaches readNext
        (fontTable [{ destination := some .fonttbl },{},{}] (flushed fonts' index buffer') index [] (125 :: k))
        (fontTable [{},{}] (flushed fonts' index buffer') index [] k) := .one rfl
    exact push.trans ((read_f index (spell_ends none)).trans ((read_class (by decide) none (spell_ends (some 0))).trans
      ((read_class (by decide) (some 0) ends_space).trans (path.trans (flush.trans pop)))))
  · rw [flushed_other ne,kept other ne,update_of_ne ne]
  · have plain : ∀ unit ∈ name, unit ≠ 59 ∧ unit ≠ 10 ∧ unit ≠ 13 := by
      intro unit member
      have plain := font.plain unit member
      simp only [mem_cons,not_mem_nil,or_false,not_or] at plain
      omega
    rw [(clean plain).2]
    exact flushed_name font

theorem read_fonts (names : List Str) (start : Nat) (fonts : Int → Option Str) (current : Int) (tame : ∀ name ∈ names, Tame name) :
    ∃ fonts' current',
      Reaches readNext (fontTable [{},{}] fonts current [] ((names.zipIdx start).flatMap (fun entry => fontEntry entry.2 entry.1) ++ k))
        (fontTable [{},{}] fonts' current' [] k) ∧
      (∀ other : Int, other < start → fonts' other = fonts other) ∧
      ∀ (i : Nat) name, names[i]? = some name → FontName name → fonts' (start + i : Nat) = some name := by
  induction names generalizing start fonts current with
  | nil => exact ⟨fonts,current,.refl,fun _ _ => rfl,fun _ _ none_ => by cases none_⟩
  | cons name names ih =>
    obtain ⟨fonts₁,first,kept₁,set₁⟩ := read_fontEntry (tame name mem_cons_self) start
    obtain ⟨fonts₂,current₂,rest,kept₂,set₂⟩ := ih (start + 1) fonts₁ start (fun name member => tame name (mem_cons_of_mem _ member))
    refine ⟨fonts₂,current₂,?_,fun other less => ?_,fun i other present font => ?_⟩
    · rw [zipIdx_cons,flatMap_cons,append_assoc]
      exact first.trans rest
    · rw [kept₂ other (by omega),kept₁ other (by omega)]
    · cases i with
      | zero =>
        cases present
        rw [kept₂ _ (by omega)]
        exact set₁ font
      | succ i =>
        have next := set₂ i other present font
        rwa [show start + (i + 1) = start + 1 + i by omega]

def colorTable (fonts : Int → Option Str) (current : Int) (colors : List Color) (building : ColorBuilding) (rest : Str) : Reader :=
  { rest, top := { destination := some .colortbl }, below := [{},{}], fonts, colors, inColortbl := true, currentFontIndex := current
    colorBuilding := building }

def colorEntry (c : Rgb) : Str := str "\\red" ++ digits c.r ++ str "\\green" ++ digits c.g ++ str "\\blue" ++ digits c.b ++ str ";"

def Rgb.toColor (c : Rgb) : Color := ⟨c.r,c.g,c.b⟩

theorem colorEntry_text (c : Rgb) :
    colorEntry c ++ k = spell "red" (some c.r) ++ (spell "green" (some c.g) ++ (spell "blue" (some c.b) ++ 59 :: k)) := by
  have red : str "\\red" = 92 :: str "red" := rfl
  have green : str "\\green" = 92 :: str "green" := rfl
  have blue : str "\\blue" = 92 :: str "blue" := rfl
  have last : str ";" = [59] := rfl
  simp [colorEntry,red,green,blue,last,spell,paramText,decimal]

theorem read_colors (fonts : Int → Option Str) (current : Int) (entries : List Rgb) (colors : List Color) :
    Reaches readNext (colorTable fonts current colors {} (entries.flatMap colorEntry ++ k))
      (colorTable fonts current (colors ++ entries.map Rgb.toColor) {} k) := by
  induction entries generalizing colors with
  | nil => simpa using Reaches.refl
  | cons c entries ih =>
    have red : ∀ k, Reaches readNext (colorTable fonts current colors {} (spell "red" (some (c.r : Int)) ++ 92 :: k))
        (colorTable fonts current colors { r := some (c.r : Int) } (92 :: k)) := fun _ =>
      read_spell (show ("red",Word.red) ∈ writtenWords by decide) (some (c.r : Int)) ends_slash rfl
    have green : ∀ k, Reaches readNext
        (colorTable fonts current colors { r := some (c.r : Int) } (spell "green" (some (c.g : Int)) ++ 92 :: k))
        (colorTable fonts current colors { r := some (c.r : Int), g := some (c.g : Int) } (92 :: k)) := fun _ =>
      read_spell (show ("green",Word.green) ∈ writtenWords by decide) (some (c.g : Int)) ends_slash rfl
    have blue : ∀ k, Reaches readNext
        (colorTable fonts current colors { r := some (c.r : Int), g := some (c.g : Int) } (spell "blue" (some (c.b : Int)) ++ 59 :: k))
        (colorTable fonts current (colors ++ [c.toColor]) {} k) := fun _ =>
      (read_spell (show ("blue",Word.blue) ∈ writtenWords by decide) (some (c.b : Int)) ends_semicolon rfl).trans (.one rfl)
    have joined : colors ++ (c :: entries).map Rgb.toColor = colors ++ [c.toColor] ++ entries.map Rgb.toColor := by simp
    rw [flatMap_cons,append_assoc,colorEntry_text,joined]
    exact (red _).trans ((green _).trans ((blue _).trans (ih _)))

end Ownly.Rtf
