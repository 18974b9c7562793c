import Ownly.Hls.Agreement
import Mathlib.Data.Char
import Mathlib.Data.List.Lex
import Mathlib.Data.Set.Basic

-- compare_segment_paths as the comparator of a sort: the names of a playlist on which it is a
-- total order, and the order in which they are then listed.
namespace Ownly.Hls
open Text
open List

def basename (path : Line) : Line := afterLast '/' path

-- What `sort_by` asks of its comparator.
structure TotalOn {α : Type} (order : α → α → Ordering) (keys : Set α) : Prop where
  opposite : ∀ a ∈ keys, ∀ b ∈ keys, order b a = (order a b).swap
  trans : ∀ a ∈ keys, ∀ b ∈ keys, ∀ c ∈ keys, order a b ≠ .gt → order b c ≠ .gt → order a c ≠ .gt

-- What it gives back then.
def Std.Sorts {D : Type} (std : Std D) : Prop :=
  ∀ order entries, TotalOn order {entry | entry ∈ entries} → (std.sortBy order entries).Pairwise (fun a b => order a b ≠ .gt)

def Apart (names : Set Line) : Prop :=
  ∀ n ∈ names, ∀ m ∈ names, ∀ t ∈ names, ∀ x y, segmentSequenceFromFilename n = some x → segmentSequenceFromFilename m = some y →
    segmentSequenceFromFilename t = none → x < y → m < t → n < t

def NotAfter (left right : Line) : Prop :=
  match segmentSequenceFromFilename left,segmentSequenceFromFilename right with
  | some a,some b => a < b ∨ a = b ∧ left ≤ right
  | _,_ => left ≤ right

section
variable {left right : Line} {names paths : Set Line}

theorem compareNames_swap : compareNames right left = (compareNames left right).swap := by
  simp only [compareNames]
  rcases lt_trichotomy left right with less | same | greater
  · simp [less,less.ne',less.not_gt]
  · simp [same]
  · simp [greater,greater.ne',greater.not_gt]

theorem compareNames_le : compareNames left right ≠ .gt ↔ left ≤ right := by
  simp only [compareNames]
  grind

theorem compareSegmentPaths_swap : compareSegmentPaths right left = (compareSegmentPaths left right).swap := by
  unfold compareSegmentPaths
  cases segmentSequenceFromFilename (afterLast '/' left) with
  | none => cases segmentSequenceFromFilename (afterLast '/' right) <;> exact compareNames_swap
  | some a =>
    cases segmentSequenceFromFilename (afterLast '/' right) with
    | none => exact compareNames_swap
    | some b =>
      simp only [ne_comm (b := a)]
      split
      · exact (Nat.compare_swap a b).symm
      · exact compareNames_swap

theorem compareSegmentPaths_le : compareSegmentPaths left right ≠ .gt ↔ NotAfter (basename left) (basename right) := by
  unfold compareSegmentPaths NotAfter basename
  cases segmentSequenceFromFilename (afterLast '/' left) with
  | none => cases segmentSequenceFromFilename (afterLast '/' right) <;> exact compareNames_le
  | some a =>
    cases segmentSequenceFromFilename (afterLast '/' right) with
    | none => exact compareNames_le
    | some b =>
      by_cases same : a = b
      · simpa [same] using compareNames_le
      · simp only [ne_eq,same,not_false_eq_true,if_true,Nat.compare_eq_gt,false_and,or_false]
        omega

theorem Apart.trans (apart : Apart names) {a b c : Line} (ha : a ∈ names) (hb : b ∈ names) (hc : c ∈ names)
    (first : NotAfter a b) (second : NotAfter b c) : NotAfter a c := by
  unfold NotAfter at *
  cases na : segmentSequenceFromFilename a with
  | none =>
    cases nb : segmentSequenceFromFilename b with
    | none => grind
    | some y =>
      cases nc : segmentSequenceFromFilename c with
      | none => grind
      | some z =>
        have within := apart b hb c hc a ha y z nb nc na
        grind
  | some x =>
    cases nb : segmentSequenceFromFilename b with
    | none =>
      cases nc : segmentSequenceFromFilename c with
      | none => grind
      | some z =>
        have between := apart c hc a ha b hb z x nc na nb
        grind
    | some y =>
      cases nc : segmentSequenceFromFilename c with
      | none =>
        have between := apart a ha b hb c hc x y na nb nc
        grind
      | some z => grind

theorem notAfter_antisymm (first : NotAfter left right) (second : NotAfter right left) : left = right := by
  unfold NotAfter at *
  grind

theorem Apart.of_trans (paths : Set Line)
    (trans : ∀ a ∈ paths, ∀ b ∈ paths, ∀ c ∈ paths, compareSegmentPaths a b ≠ .gt → compareSegmentPaths b c ≠ .gt → compareSegmentPaths a c ≠ .gt) :
    Apart (basename '' paths) := by
  rintro _ ⟨n,hn,rfl⟩ _ ⟨m,hm,rfl⟩ _ ⟨t,ht,rfl⟩ x y nx my unnumbered less below
  by_contra between
  have round := trans m hm t ht n hn
  simp only [compareSegmentPaths_le,NotAfter,nx,my,unnumbered] at round
  grind

end

section
variable {D : Type} {std : Std D} {entries shuffled : List (Line × D)} {paths : Set Line}

theorem total_of_apart (apart : Apart (basename '' paths)) : TotalOn compareSegmentPaths paths := by
  constructor
  · intro a _ b _
    exact compareSegmentPaths_swap
  · intro a ha b hb c hc
    simp only [compareSegmentPaths_le]
    exact apart.trans (Set.mem_image_of_mem _ ha) (Set.mem_image_of_mem _ hb) (Set.mem_image_of_mem _ hc)

theorem sortPaths_ordered (sorts : std.Sorts) (total : TotalOn compareSegmentPaths paths) (within : ∀ entry ∈ entries, entry.1 ∈ paths) :
    ((sortPaths std entries).map (fun entry => basename entry.1)).Pairwise NotAfter := by
  rw [pairwise_map]
  refine (sorts _ entries ?_).imp (fun ordered => compareSegmentPaths_le.mp ordered)
  exact ⟨fun a ha b hb => total.opposite _ (within a ha) _ (within b hb),
    fun a ha b hb c hc => total.trans _ (within a ha) _ (within b hb) _ (within c hc)⟩

-- The comparator is a total order, and the listing does not depend on where each segment stood.
theorem segment_order_iff (sorts : std.Sorts) (paths : Set Line) :
    (TotalOn compareSegmentPaths paths ∧
      ∀ entries shuffled : List (Line × D), entries.Perm shuffled → (∀ entry ∈ entries, entry.1 ∈ paths) →
        (sortPaths std entries).map (fun entry => basename entry.1) = (sortPaths std shuffled).map (fun entry => basename entry.1)) ↔
      Apart (basename '' paths) := by
  constructor
  · intro ordered
    exact Apart.of_trans paths ordered.1.trans
  · intro apart
    have total := total_of_apart apart
    refine ⟨total,?_⟩
    intro entries shuffled perm within
    apply List.Perm.eq_of_pairwise (fun a b _ _ => notAfter_antisymm)
    · exact sortPaths_ordered sorts total within
    · exact sortPaths_ordered sorts total (fun entry member => within entry (perm.mem_iff.mpr member))
    · exact ((std.sortBy_perm _ entries).trans (perm.trans (std.sortBy_perm _ shuffled).symm)).map _

end

theorem textStd_sorts : textStd.Sorts := by
  intro order entries
  induction entries with
  | nil => exact fun _ => List.Pairwise.nil
  | cons entry rest ih =>
    intro total
    have sorted := ih ⟨fun a ha b hb => total.opposite a (.tail _ ha) b (.tail _ hb),
      fun a ha b hb c hc => total.trans a (.tail _ ha) b (.tail _ hb) c (.tail _ hc)⟩
    have members : ∀ other ∈ textStd.sortBy order rest, other ∈ entry :: rest :=
      fun other member => .tail _ ((textStd.sortBy_perm order rest).mem_iff.mp member)
    change (List.orderedInsert (fun left right => order left right ≠ .gt) entry (textStd.sortBy order rest)).Pairwise _
    generalize textStd.sortBy order rest = placed at sorted members
    induction placed with
    | nil => exact pairwise_singleton _ _
    | cons head tail behind =>
      obtain ⟨under,ordered⟩ := pairwise_cons.mp sorted
      have inside := members head mem_cons_self
      have opposite := total.opposite entry mem_cons_self head inside
      rw [orderedInsert_cons]
      split
      · rename_i before
        refine pairwise_cons.mpr ⟨?_,sorted⟩
        rintro other (_ | ⟨_,member⟩)
        · exact before
        · exact total.trans _ mem_cons_self _ inside _ (members other (.tail _ member)) before (under other member)
      · rename_i after
        refine pairwise_cons.mpr ⟨?_,behind ordered (fun other member => members other (.tail _ member))⟩
        intro other member
        rcases (mem_orderedInsert _).mp member with rfl | member
        · simp_all
        · exact under other member

def stored : Set Line := {"segments/2.ts".toList,"segments/10.ts".toList,"segments/poster.ts".toList}

theorem stored_ordered : TotalOn compareSegmentPaths stored := by
  refine ((segment_order_iff textStd_sorts stored).mpr ?_).1
  rintro _ ⟨n,hn,rfl⟩ _ ⟨m,hm,rfl⟩ _ ⟨t,ht,rfl⟩ x y nx my unnumbered less below
  simp only [stored,Set.mem_insert_iff,Set.mem_singleton_iff] at hn hm ht
  have poster : ∀ s ∈ ["segments/2.ts".toList,"segments/10.ts".toList,"segments/poster.ts".toList],
      segmentSequenceFromFilename (basename s) = none → s = "segments/poster.ts".toList := by decide
  have behind : ∀ s ∈ ["segments/2.ts".toList,"segments/10.ts".toList,"segments/poster.ts".toList],
      segmentSequenceFromFilename (basename s) ≠ none → basename s < "poster.ts".toList := by decide
  rw [poster t (by simpa using ht) unnumbered]
  exact behind n (by simpa using hn) (by simp [nx])

theorem segment_order_cycles : ¬∀ paths, TotalOn compareSegmentPaths paths := by
  intro total
  have round := (total {"10.ts".toList,"1a.ts".toList,"9.ts".toList}).trans "10.ts".toList (by simp) "1a.ts".toList (by simp)
    "9.ts".toList (by simp)
  exact round (by decide) (by decide) (by decide)

end Ownly.Hls
