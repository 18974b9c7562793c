import Ownly.Sheets.Pasting
import Ownly.Sheets.Spill
import Ownly.Lib.Comparators
import Mathlib.Algebra.Order.Ring.Rat
import Mathlib.Algebra.Order.Ring.Cast

-- SORT of formula-dynamic-arrays.ts: a comparator that reads both values as numbers where it
-- can and compares their texts otherwise, and the rows of an array sorted by it.
namespace Ownly.Sheets.Sorting
open Collab (Text)
open Spill (Scalar EvalArray)
open Comparators
open List

-- `String(value ?? "")`
def scalarText (env : Env) : Scalar → Text
  | .null => []
  | .text t => t
  | .number n => env.numberText n
  | .bool b => if b then textOf "true" else textOf "false"

-- `Number(String(value ?? "").replace(/[$,%\s,]/g, ""))` where it is finite.
def sortNumber (env : Env) (value : Scalar) : Option Rat :=
  env.number ((scalarText env value).filter (fun c => !(['$',',','%'].contains c || isSpace c)))

-- `localeCompare` with the sensitivity of a base letter, on the texts of two values.
def collate (env : Env) (locale : Text → Text → Int) (a b : Scalar) : Rat := locale (scalarText env a) (scalarText env b)

def compareValues (env : Env) (locale : Text → Text → Int) (a b : Scalar) (order : Int) : Rat :=
  let cmp := mixed (sortNumber env) (collate env locale) a b
  if order < 0 then -cmp else cmp

def rowsOf (values : List Scalar) (cols : Nat) : List (List Scalar) :=
  (List.range ((values.length + cols - 1) / cols)).map (fun row =>
    (List.range cols).map (fun col => (values[row * cols + col]?).getD .null))

-- The index counts from one and is held within the columns.
def sortKey (cols : Nat) (sortIndex : Int) (row : List Scalar) : Scalar :=
  (row[(min (cols : Int) (max 1 sortIndex) - 1).toNat]?).getD .null

def evalSort (env : Env) (locale : Text → Text → Int) (arrayValues : List Scalar) (spillCols : Nat) (sortIndex sortOrder : Int) : EvalArray :=
  let cols := max 1 spillCols
  let rows := rowsOf arrayValues cols
  let sorted := sortBy (fun a b => compareValues env locale (sortKey cols sortIndex a) (sortKey cols sortIndex b) sortOrder) rows
  ⟨sorted.flatten,sorted.length,cols⟩

section
variable {env : Env} {locale : Text → Text → Int} {keys : Set Scalar} {cols : Nat} {rows shuffled : List (List Scalar)}

theorem collate_preorder (ordered : PreorderOn locale Set.univ) : PreorderOn (collate env locale) keys := by
  have texts : PreorderOn (fun a b => locale (scalarText env a) (scalarText env b)) keys :=
    (ordered.comap (scalarText env)).mono (fun _ _ => Set.mem_univ _)
  constructor
  · intro a ha b hb
    simpa only [collate,Int.cast_pos,Int.cast_lt_zero] using texts.opposite a ha b hb
  · intro a ha b hb c hc
    simpa only [collate,Int.cast_nonpos] using texts.trans a ha b hb c hc

theorem compareValues_ascending : (fun a b => compareValues env locale a b 1) = mixed (sortNumber env) (collate env locale) := rfl

theorem compareValues_preorder (preorder : PreorderOn (mixed (sortNumber env) (collate env locale)) keys) (order : Int) :
    PreorderOn (fun a b => compareValues env locale a b order) keys := by
  rcases lt_or_ge order 0 with descending | ascending
  · simpa only [compareValues,if_pos descending] using preorder.reverse
  · simpa only [compareValues,if_neg (not_lt.mpr ascending)] using preorder

theorem flatten_at (even : ∀ row ∈ rows, row.length = cols) (row col : Nat) (inside : col < cols) :
    rows.flatten[row * cols + col]? = rows[row]?.bind (·[col]?) := by
  induction rows generalizing row with
  | nil => simp
  | cons head rest ih =>
    have width := even head mem_cons_self
    rw [flatten_cons]
    cases row with
    | zero => simp [getElem?_append_left (width ▸ inside)]
    | succ row =>
      have past : head.length ≤ (row + 1) * cols + col := by rw [width,Nat.add_mul,Nat.one_mul]; omega
      rw [getElem?_append_right past,getElem?_cons_succ,← ih (fun row member => even row (mem_cons_of_mem _ member)) row]
      congr 1
      rw [width,Nat.add_mul,Nat.one_mul]
      omega

theorem rowsOf_flatten (even : ∀ row ∈ rows, row.length = cols) (wide : 0 < cols) : rowsOf rows.flatten cols = rows := by
  have size : rows.flatten.length = rows.length * cols := by
    rw [List.length_flatten,eq_replicate_of_mem (l := rows.map List.length) (a := cols)]
    · simp
    · simpa using even
  have count : (rows.flatten.length + cols - 1) / cols = rows.length := by
    rw [size,Nat.add_sub_assoc wide,Nat.mul_comm,Nat.mul_add_div wide,Nat.div_eq_of_lt (by omega),Nat.add_zero]
  apply ext_getElem
  · rw [rowsOf,count]
    simp
  · intro row low high
    have width := even _ (getElem_mem high)
    simp only [rowsOf,getElem_map,getElem_range]
    apply ext_getElem
    · simp [width]
    · intro col left right
      simp only [getElem_map,getElem_range]
      rw [flatten_at even row col (width ▸ right),getElem?_eq_getElem high,Option.bind_some,getElem?_eq_getElem right]
      rfl

theorem evalSort_perm {sortIndex sortOrder : Int} (preorder : PreorderOn (fun a b => compareValues env locale a b sortOrder) keys)
    (wide : 0 < cols) (even : ∀ row ∈ rows, row.length = cols) (keyed : ∀ row ∈ rows, sortKey cols sortIndex row ∈ keys)
    (apart : rows.Pairwise (fun a b => compareValues env locale (sortKey cols sortIndex a) (sortKey cols sortIndex b) sortOrder ≠ 0))
    (perm : rows.Perm shuffled) :
    evalSort env locale rows.flatten cols sortIndex sortOrder = evalSort env locale shuffled.flatten cols sortIndex sortOrder := by
  have widest : max 1 cols = cols := by omega
  have same := sortBy_eq_of_perm ((preorder.comap (sortKey cols sortIndex)).mono keyed) apart perm
  simp only [evalSort,widest]
  rw [rowsOf_flatten even wide,rowsOf_flatten (fun row member => even row (perm.mem_iff.mpr member)) wide,same]

end

-- Texts by the code points of their small letters.
def plainLocale : Text → Text → Int
  | [], [] => 0
  | [], _ :: _ => -1
  | _ :: _, [] => 1
  | c :: s, d :: t => if c.toLower.toNat < d.toLower.toNat then -1 else if d.toLower.toNat < c.toLower.toNat then 1 else plainLocale s t

theorem plainLocale_preorder : PreorderOn plainLocale Set.univ := by
  constructor
  · intro s _ t _
    induction s generalizing t with
    | nil => cases t <;> simp [plainLocale]
    | cons c s ih =>
      cases t with
      | nil => simp [plainLocale]
      | cons d t =>
        have rest := ih (Set.mem_univ _) t (Set.mem_univ _)
        simp only [plainLocale]
        grind
  · intro s _ t _ u _
    induction s generalizing t u with
    | nil => cases u <;> cases t <;> simp [plainLocale]
    | cons c s ih =>
      cases t with
      | nil => simp [plainLocale]
      | cons d t =>
        cases u with
        | nil => simp [plainLocale]
        | cons e u =>
          have rest := ih (Set.mem_univ _) t (Set.mem_univ _) u (Set.mem_univ _)
          simp only [plainLocale]
          grind

theorem nine_ten : sortNumber plainEnv (.number 9) = some 9 ∧ sortNumber plainEnv (.number 10) = some 10 := by decide

-- The comparator orders a set of keys, and sorts by it are determined, when every text that is
-- no number stands apart from the numbers.
theorem sort_consistent_iff (env : Env) (locale : Text → Text → Int) (ordered : PreorderOn locale Set.univ) (keys : Set Scalar) :
    ((∀ order, PreorderOn (fun a b => compareValues env locale a b order) keys) ∧
      ∀ (cols : Nat) (sortIndex sortOrder : Int) (rows shuffled : List (List Scalar)), 0 < cols →
        (∀ row ∈ rows, row.length = cols) → (∀ row ∈ rows, sortKey cols sortIndex row ∈ keys) →
        rows.Pairwise (fun a b => compareValues env locale (sortKey cols sortIndex a) (sortKey cols sortIndex b) sortOrder ≠ 0) →
        rows.Perm shuffled →
        evalSort env locale rows.flatten cols sortIndex sortOrder = evalSort env locale shuffled.flatten cols sortIndex sortOrder) ↔
      Separated (sortNumber env) (collate env locale) keys := by
  have texts : PreorderOn (collate env locale) keys := collate_preorder ordered
  constructor
  · intro consistent
    have ascending := consistent.1 1
    rw [compareValues_ascending] at ascending
    exact Separated.of_preorder texts ascending
  · intro separated
    have preorder := compareValues_preorder (separated.preorder texts)
    exact ⟨preorder,fun cols sortIndex sortOrder rows shuffled wide even keyed apart perm =>
      evalSort_perm (preorder sortOrder) wide even keyed apart perm⟩

theorem words_behind_numbers : PreorderOn (fun a b => compareValues plainEnv plainLocale a b (-1))
    {.number 9,.number 10,.text (textOf "a")} := by
  refine ((sort_consistent_iff plainEnv plainLocale plainLocale_preorder _).mpr ?_).1 (-1)
  have word : sortNumber plainEnv (.text (textOf "a")) = none := by decide
  have behind : ∀ n ∈ ({.number 9,.number 10,.text (textOf "a")} : Set Scalar), ∀ x, sortNumber plainEnv n = some x →
      collate plainEnv plainLocale n (.text (textOf "a")) = -1 := by
    intro n member x known
    rcases member with rfl | rfl | rfl
    · decide
    · decide
    · cases word.symm.trans known
  intro n hn m hm t ht x y nx my unmeasured
  have text : t = .text (textOf "a") := by
    rcases ht with rfl | rfl | rfl
    · cases (nine_ten.1.symm.trans unmeasured)
    · cases (nine_ten.2.symm.trans unmeasured)
    · rfl
  subst text
  rw [behind n hn x nx,behind m hm y my]
  exact ⟨fun _ => .inl (by decide),fun _ => ⟨Iff.rfl,Iff.rfl⟩⟩

theorem sort_cycles : PreorderOn plainLocale Set.univ ∧
    compareValues plainEnv plainLocale (.number 10) (.text (textOf "1a")) 1 < 0 ∧
    compareValues plainEnv plainLocale (.text (textOf "1a")) (.number 9) 1 < 0 ∧
    0 < compareValues plainEnv plainLocale (.number 10) (.number 9) 1 := by
  refine ⟨plainLocale_preorder,by decide,by decide,?_⟩
  rw [compareValues,if_neg (by decide),mixed_measured nine_ten.2 nine_ten.1]
  exact sub_pos.mpr (by decide)

end Ownly.Sheets.Sorting
