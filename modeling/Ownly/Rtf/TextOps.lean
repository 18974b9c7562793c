import Ownly.Collab.PlainDiff

-- frontend/src/lib/rtf/text-ops.ts: a replacement in the editor, whose DOM counts UTF-16 units,
-- against applyReplace, which counts code points. Of the DOM there are the text nodes below the
-- root, in document order: no walk and no range here looks at the elements around them.
namespace Ownly.Rtf.TextOps
open JsString
open Collab.PlainDiff
open List

-- A boundary point: its text node, cut at the offset, and the text nodes before and behind it.
structure TextPoint where
  front : List Str
  left : Str
  right : Str
  back : List Str
  deriving DecidableEq

def pointAtPlainOffset (remaining : Nat) (front : List Str) (last : Option TextPoint) : List Str → Option TextPoint
  | [] => last
  | data :: rest =>
    if remaining ≤ data.length then some ⟨front,data.take remaining,data.drop remaining,rest⟩
    else pointAtPlainOffset (remaining - data.length) (front ++ [data]) (some ⟨front,data,[],rest⟩) rest

structure Range where
  start : TextPoint
  stop : TextPoint

-- Two points of one root are the same, or they are not collapsed.
def rangeFromPlainOffsets (nodes : List Str) (start stop : Nat) : Option Range :=
  match pointAtPlainOffset start [] none nodes,pointAtPlainOffset stop [] none nodes with
  | some p,some q => if p = q then none else some ⟨p,q⟩
  | _,_ => none

def Range.deleteContents (range : Range) : List Str :=
  if range.start.front.length = range.stop.front.length then range.start.front ++ [range.start.left ++ range.stop.right] ++ range.stop.back
  else range.start.front ++ [range.start.left,range.stop.right] ++ range.stop.back

-- `splitText`, with the new node before the second half.
def TextPoint.insertNode (point : TextPoint) (text : Str) : List Str := point.front ++ [point.left,text,point.right] ++ point.back

def insertPlainTextAt (nodes : List Str) (index : Nat) (text : Str) : List Str :=
  match rangeFromPlainOffsets nodes index (index + 1) with
  | some range => range.start.insertNode text
  | none =>
    match if 0 < index then rangeFromPlainOffsets nodes (index - 1) index else none with
    | some range => range.stop.insertNode text
    | none => text :: nodes

-- `normalize` joins text nodes, and leaves the text.
def applyPlainReplaceToEditor (nodes : List Str) (op : TextReplace) : Str :=
  let cut := if 0 < op.delete then ((rangeFromPlainOffsets nodes op.index (op.index + op.delete)).map Range.deleteContents).getD nodes else nodes
  (if op.insert ≠ [] then insertPlainTextAt cut op.index op.insert else cut).flatten

-- The unit at which a code point begins.
def offsetOf (text : Str) (n : Nat) : Nat := ((spread text).take n).flatten.length

-- What is deleted has one unit for each code point; and the units that the code points in front of
-- it have beyond one each are the same ones whether they are counted before the insertion or behind it.
def UnitsFit (text : Str) (op : TextReplace) : Prop :=
  offsetOf text (op.index + op.delete) = offsetOf text op.index + op.delete ∧
  (text.drop op.index).take (offsetOf text op.index - op.index) ++ op.insert =
    op.insert ++ (text.drop (op.index + op.delete)).take (offsetOf text op.index - op.index)

variable {nodes front : List Str} {text : Str} {last : Option TextPoint} {point : TextPoint} {range : Range} {op : TextReplace} {start stop index n : Nat}

theorem pointAt_cut (found : pointAtPlainOffset n front last nodes = some point) (some_ : nodes ≠ []) :
    point.front.flatten ++ point.left = front.flatten ++ nodes.flatten.take n ∧
    point.right ++ point.back.flatten = nodes.flatten.drop n := by
  induction nodes generalizing n front last with
  | nil => exact absurd rfl some_
  | cons data rest ih =>
    rw [pointAtPlainOffset] at found
    split at found
    · rename_i inside
      cases found
      simp [take_append_of_le_length inside,drop_append_of_le_length inside]
    · rename_i beyond
      have past : data.length ≤ n := by omega
      cases rest with
      | nil =>
        cases found
        simp [take_of_length_le past,drop_of_length_le past]
      | cons more rest =>
        obtain ⟨before,behind⟩ := ih found (cons_ne_nil _ _)
        have whole : (data :: more :: rest).flatten = data ++ (more :: rest).flatten := rfl
        rw [before,behind,whole,take_append,drop_append,take_of_length_le past,drop_of_length_le past]
        simp only [flatten_append,flatten_singleton,append_assoc,nil_append,and_self]

theorem pointAt_some (n : Nat) (front : List Str) (last : Option TextPoint) (some_ : nodes ≠ [] ∨ last.isSome) :
    (pointAtPlainOffset n front last nodes).isSome := by
  induction nodes generalizing n front last with
  | nil => simpa [pointAtPlainOffset] using some_
  | cons data rest ih =>
    rw [pointAtPlainOffset]
    split
    · rfl
    · exact ih _ _ _ (.inr rfl)

theorem range_cuts (found : rangeFromPlainOffsets nodes start stop = some range) :
    (range.start.front.flatten ++ range.start.left = nodes.flatten.take start ∧
      range.start.right ++ range.start.back.flatten = nodes.flatten.drop start) ∧
    range.stop.front.flatten ++ range.stop.left = nodes.flatten.take stop ∧
      range.stop.right ++ range.stop.back.flatten = nodes.flatten.drop stop := by
  unfold rangeFromPlainOffsets at found
  split at found
  · rename_i p q first second
    split at found
    · cases found
    · cases found
      have some_ : nodes ≠ [] := by rintro rfl; cases first
      exact ⟨pointAt_cut first some_,pointAt_cut second some_⟩
  · cases found

theorem range_some (less : start < stop) (inside : start < nodes.flatten.length) : ∃ range, rangeFromPlainOffsets nodes start stop = some range := by
  have some_ : nodes ≠ [] := by rintro rfl; cases inside
  obtain ⟨p,first⟩ := Option.isSome_iff_exists.mp (pointAt_some start [] none (.inl some_))
  obtain ⟨q,second⟩ := Option.isSome_iff_exists.mp (pointAt_some stop [] none (.inl some_))
  have apart : p ≠ q := by
    rintro rfl
    have lengths := congrArg List.length ((pointAt_cut first some_).2.symm.trans (pointAt_cut second some_).2)
    simp only [length_drop] at lengths
    omega
  exact ⟨⟨p,q⟩,by rw [rangeFromPlainOffsets,first,second]; exact if_neg apart⟩

theorem deleteContents_flatten (found : rangeFromPlainOffsets nodes start stop = some range) :
    range.deleteContents.flatten = nodes.flatten.take start ++ nodes.flatten.drop stop := by
  obtain ⟨⟨front,-⟩,-,back⟩ := range_cuts found
  rw [← front,← back]
  unfold Range.deleteContents
  split <;> simp

theorem insertNode_flatten (before : point.front.flatten ++ point.left = text.take index) (behind : point.right ++ point.back.flatten = text.drop index)
    (insert : Str) : (point.insertNode insert).flatten = text.take index ++ insert ++ text.drop index := by
  rw [← before,← behind]
  simp [TextPoint.insertNode]

theorem insertPlainTextAt_flatten (inside : index ≤ nodes.flatten.length) (insert : Str) :
    (insertPlainTextAt nodes index insert).flatten = nodes.flatten.take index ++ insert ++ nodes.flatten.drop index := by
  unfold insertPlainTextAt
  split
  · rename_i range found
    obtain ⟨⟨before,behind⟩,-⟩ := range_cuts found
    exact insertNode_flatten before behind insert
  · rename_i none
    have end_ : index = nodes.flatten.length := by
      by_contra other
      obtain ⟨range,found⟩ := range_some (Nat.lt_succ_self index) (by omega : index < nodes.flatten.length)
      rw [none] at found
      cases found
    split
    · rename_i range found
      split at found
      · obtain ⟨-,before,behind⟩ := range_cuts found
        exact insertNode_flatten before behind insert
      · cases found
    · rename_i missing
      split at missing
      · obtain ⟨range,found⟩ := range_some (by omega : index - 1 < index) (by omega : index - 1 < nodes.flatten.length)
        rw [missing] at found
        cases found
      · have zero : index = 0 := by omega
        have empty : nodes.flatten = [] := eq_nil_of_length_eq_zero (end_.symm.trans zero)
        rw [flatten_cons,empty,zero]
        simp

theorem applyPlain_units (inside : op.index + op.delete ≤ nodes.flatten.length) :
    applyPlainReplaceToEditor nodes op = nodes.flatten.take op.index ++ op.insert ++ nodes.flatten.drop (op.index + op.delete) := by
  have cut : (if 0 < op.delete then ((rangeFromPlainOffsets nodes op.index (op.index + op.delete)).map Range.deleteContents).getD nodes
      else nodes).flatten = nodes.flatten.take op.index ++ nodes.flatten.drop (op.index + op.delete) := by
    split
    · obtain ⟨range,found⟩ := range_some (by omega : op.index < op.index + op.delete) (by omega : op.index < nodes.flatten.length)
      rw [found]
      exact deleteContents_flatten found
    · rename_i none
      rw [Nat.eq_zero_of_not_pos none,Nat.add_zero,take_append_drop]
  rw [applyPlainReplaceToEditor]
  generalize (if 0 < op.delete then _ else nodes) = left at cut
  have width : (nodes.flatten.take op.index).length = op.index := length_take_of_le (by omega)
  split
  · rw [insertPlainTextAt_flatten (by rw [cut,length_append,width]; omega),cut,take_left' width,drop_left' width]
  · rename_i nothing
    rw [cut,not_not.mp nothing,append_nil]

theorem length_flatten (blocks : List Str) (some_ : ∀ block ∈ blocks, 0 < block.length) : blocks.length ≤ blocks.flatten.length := by
  induction blocks with
  | nil => exact Nat.le_refl _
  | cons block rest ih =>
    have own := some_ block mem_cons_self
    have later := ih (fun other member => some_ other (mem_cons_of_mem _ member))
    simp only [length_cons,flatten_cons,length_append]
    omega

theorem spread_pos (text : Str) : ∀ block ∈ spread text, 0 < block.length := by
  induction text using spread.induct with
  | case1 => simp [spread]
  | case2 unit => simp [spread]
  | case3 unit next rest pair ih => simpa [spread,pair] using ih
  | case4 unit next rest apart ih => simpa [spread,apart] using ih

theorem offsetOf_add (text : Str) {n d : Nat} (inside : n + d ≤ (spread text).length) : offsetOf text n + d ≤ offsetOf text (n + d) := by
  have blocks := length_flatten (((spread text).drop n).take d)
    (fun block member => spread_pos text block (drop_subset _ _ (take_subset _ _ member)))
  simp only [length_take,length_drop] at blocks
  rw [offsetOf,offsetOf,take_add,flatten_append,length_append]
  omega

theorem take_offsetOf (text : Str) (n : Nat) :
    ((spread text).take n).flatten = text.take (offsetOf text n) ∧ ((spread text).drop n).flatten = text.drop (offsetOf text n) := by
  have whole : ((spread text).take n).flatten ++ ((spread text).drop n).flatten = text := by
    rw [← flatten_append,take_append_drop,spread_flatten]
  have front : (((spread text).take n).flatten ++ ((spread text).drop n).flatten).take (offsetOf text n) = ((spread text).take n).flatten :=
    take_left' rfl
  have back : (((spread text).take n).flatten ++ ((spread text).drop n).flatten).drop (offsetOf text n) = ((spread text).drop n).flatten :=
    drop_left' rfl
  rw [whole] at front back
  exact ⟨front.symm,back.symm⟩

-- The editor does what applyReplace does exactly when its units fit.
theorem replace_in_editor_iff (nodes : List Str) (op : TextReplace) (inside : op.index + op.delete ≤ (spread nodes.flatten).length) :
    applyPlainReplaceToEditor nodes op = applyReplace nodes.flatten op ↔ UnitsFit nodes.flatten op := by
  have points := offsetOf_add nodes.flatten (n := 0) (d := op.index) (by omega)
  have deleted := offsetOf_add nodes.flatten inside
  have units : offsetOf nodes.flatten (op.index + op.delete) ≤ nodes.flatten.length := by
    have sum := congrArg List.length (take_offsetOf nodes.flatten (op.index + op.delete)).1
    rw [length_take] at sum
    change offsetOf _ _ = _ at sum
    omega
  rw [Nat.zero_add] at points
  rw [applyPlain_units (by omega),applyReplace]
  simp only [min_eq_left (by omega : op.index ≤ (spread nodes.flatten).length),min_eq_left inside,(take_offsetOf _ _).1,(take_offsetOf _ _).2]
  unfold UnitsFit
  generalize offsetOf nodes.flatten op.index = a at *
  generalize offsetOf nodes.flatten (op.index + op.delete) = b at *
  generalize nodes.flatten = text at *
  have shift : text.take a = text.take op.index ++ (text.drop op.index).take (a - op.index) := by
    rw [← take_add]
    congr 1
    omega
  rw [shift,append_assoc,append_assoc,append_assoc,append_cancel_left_eq]
  have kept : b = a + op.delete → text.drop (op.index + op.delete) = (text.drop (op.index + op.delete)).take (a - op.index) ++ text.drop b := by
    intro same
    have place : b = op.index + op.delete + (a - op.index) := by omega
    have halves := (take_append_drop (a - op.index) (text.drop (op.index + op.delete))).symm
    rwa [drop_drop,← place] at halves
  constructor
  · intro same
    have lengths := congrArg List.length same
    simp only [length_append,length_drop,length_take] at lengths
    have span : b = a + op.delete := by omega
    rw [kept span,← append_assoc,← append_assoc,append_cancel_right_eq] at same
    exact ⟨span,same.symm⟩
  · rintro ⟨span,same⟩
    rw [kept span,← append_assoc,← same,append_assoc]

def smile : Char := Char.ofNat 0x1F600

theorem twice_replaced : applyPlainReplaceToEditor [str "a",str "ab"] ⟨2,1,str "c"⟩ = applyReplace (str "aab") ⟨2,1,str "c"⟩ ↔
    UnitsFit (str "aab") ⟨2,1,str "c"⟩ :=
  replace_in_editor_iff [str "a",str "ab"] ⟨2,1,str "c"⟩ (by decide)

theorem smile_torn : ¬∀ nodes op, op.index + op.delete ≤ (spread nodes.flatten).length →
    applyPlainReplaceToEditor nodes op = applyReplace nodes.flatten op := by
  intro all
  have torn := all [ofChars [smile],str "a"] ⟨1,1,str "b"⟩ (by decide)
  revert torn
  decide

end Ownly.Rtf.TextOps
