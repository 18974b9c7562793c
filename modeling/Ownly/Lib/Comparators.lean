import Mathlib.Algebra.Order.Group.Basic
import Mathlib.Data.Set.Basic
import Mathlib.Data.List.Pairwise

-- Functions that compare two values by the sign of what they give, as a sort takes them:
-- when such a function orders a set of keys, and that a sort by it then forgets the order in
-- which its input comes. A comparator may be put together from two, one for the keys that have
-- a measure and one for all others.
namespace Ownly.Comparators
open List

section
variable {α K : Type} [AddCommGroup K] {measure : α → Option K} {other : α → α → K} {a b : α} {x y : K}

def mixed (measure : α → Option K) (other : α → α → K) (a b : α) : K :=
  match measure a, measure b with
  | some x, some y => x - y
  | _, _ => other a b

@[simp] theorem mixed_measured (hx : measure a = some x) (hy : measure b = some y) : mixed measure other a b = x - y := by
  simp only [mixed,hx,hy]

@[simp] theorem mixed_left (unmeasured : measure a = none) : mixed measure other a b = other a b := by
  simp only [mixed,unmeasured]

@[simp] theorem mixed_right (unmeasured : measure b = none) : mixed measure other a b = other a b := by
  cases known : measure a with
  | none => simp only [mixed,known]
  | some x => simp only [mixed,known,unmeasured]

end

variable {α β K : Type} [AddCommGroup K] [LinearOrder K]

-- The comparison both ways has opposite signs, and "not after" is transitive.
structure PreorderOn (cmp : α → α → K) (keys : Set α) : Prop where
  opposite : ∀ a ∈ keys, ∀ b ∈ keys, (0 < cmp a b ↔ cmp b a < 0)
  trans : ∀ a ∈ keys, ∀ b ∈ keys, ∀ c ∈ keys, cmp a b ≤ 0 → cmp b c ≤ 0 → cmp a c ≤ 0

-- No key without a measure is between two measured ones the wrong way round.
def Separated (measure : α → Option K) (other : α → α → K) (keys : Set α) : Prop :=
  ∀ n ∈ keys, ∀ m ∈ keys, ∀ t ∈ keys, ∀ x y, measure n = some x → measure m = some y → measure t = none →
    (x < y → other n t < 0 ∨ other t m < 0) ∧
      (x = y → (other n t < 0 ↔ other m t < 0) ∧ (0 < other n t ↔ 0 < other m t))

def sortBy (cmp : α → α → K) (rows : List α) : List α := rows.mergeSort (fun a b => decide (cmp a b ≤ 0))

section
variable {cmp : α → α → K} {keys : Set α} {a b c : α} {rows shuffled : List α}

theorem PreorderOn.opposite' (preorder : PreorderOn cmp keys) (ha : a ∈ keys) (hb : b ∈ keys) : cmp a b < 0 ↔ 0 < cmp b a :=
  (preorder.opposite b hb a ha).symm

theorem PreorderOn.not_after (preorder : PreorderOn cmp keys) (ha : a ∈ keys) (hb : b ∈ keys) : cmp a b ≤ 0 ↔ 0 ≤ cmp b a := by
  rw [← not_lt,← not_lt,preorder.opposite a ha b hb]

theorem PreorderOn.mono {fewer : Set α} (preorder : PreorderOn cmp keys) (within : fewer ⊆ keys) : PreorderOn cmp fewer :=
  ⟨fun a ha b hb => preorder.opposite a (within ha) b (within hb),
    fun a ha b hb c hc => preorder.trans a (within ha) b (within hb) c (within hc)⟩

theorem PreorderOn.comap (f : β → α) (preorder : PreorderOn cmp keys) : PreorderOn (fun a b => cmp (f a) (f b)) {a | f a ∈ keys} :=
  ⟨fun a ha b hb => preorder.opposite (f a) ha (f b) hb,fun a ha b hb c hc => preorder.trans (f a) ha (f b) hb (f c) hc⟩

theorem sortBy_perm (cmp : α → α → K) (rows : List α) : (sortBy cmp rows).Perm rows := mergeSort_perm _ _

theorem PreorderOn.alike (preorder : PreorderOn cmp keys) (ha : a ∈ keys) (hb : b ∈ keys) (hc : c ∈ keys) (same : cmp a b = 0) :
    (cmp a c < 0 ↔ cmp b c < 0) ∧ (0 < cmp a c ↔ 0 < cmp b c) := by
  have back : cmp b a = 0 := le_antisymm ((preorder.not_after hb ha).mpr same.ge) ((preorder.not_after ha hb).mp same.le)
  constructor
  · rw [preorder.opposite' ha hc,preorder.opposite' hb hc,← not_le,← not_le,not_iff_not]
    exact ⟨fun under => preorder.trans c hc a ha b hb under same.le,fun under => preorder.trans c hc b hb a ha under back.le⟩
  · rw [← not_le,← not_le,not_iff_not]
    exact ⟨fun under => preorder.trans b hb a ha c hc back.le under,fun under => preorder.trans a ha b hb c hc same.le under⟩

theorem sortBy_sorted (preorder : PreorderOn cmp {row | row ∈ rows}) : (sortBy cmp rows).Pairwise (fun a b => cmp a b ≤ 0) := by
  let le (a b : {row // row ∈ rows}) : Bool := decide (cmp a.1 b.1 ≤ 0)
  have sorted : (rows.attach.mergeSort le).Pairwise (fun a b => le a b = true) := by
    apply pairwise_mergeSort
    · intro a b c first second
      exact decide_eq_true (preorder.trans _ a.2 _ b.2 _ c.2 (of_decide_eq_true first) (of_decide_eq_true second))
    · intro a b
      simp only [le,Bool.or_eq_true,decide_eq_true_eq,preorder.not_after b.2 a.2]
      exact le_total _ _
  have values : (rows.attach.mergeSort le).map Subtype.val = sortBy cmp rows := by
    have moved := map_mergeSort (r := le) (s := fun a b => decide (cmp a b ≤ 0)) (f := Subtype.val) (l := rows.attach)
      (fun a _ b _ => rfl)
    rwa [attach_map_subtype_val] at moved
  rw [← values,pairwise_map]
  exact sorted.imp of_decide_eq_true

theorem sortBy_eq_of_perm (preorder : PreorderOn cmp {row | row ∈ rows}) (apart : rows.Pairwise (fun a b => cmp a b ≠ 0))
    (perm : rows.Perm shuffled) : sortBy cmp rows = sortBy cmp shuffled := by
  have members : ∀ row, row ∈ shuffled ↔ row ∈ rows := fun row => perm.symm.mem_iff
  have tieless : ∀ a ∈ rows, ∀ b ∈ rows, a ≠ b → cmp a b ≠ 0 := by
    have nonzero : rows.Pairwise (fun a b => cmp a b ≠ 0 ∧ cmp b a ≠ 0) := by
      refine apart.imp_of_mem ?_
      intro a b ha hb distinct
      refine ⟨distinct,fun zero => distinct ?_⟩
      exact le_antisymm ((preorder.not_after ha hb).mpr zero.ge) ((preorder.not_after hb ha).mp zero.le)
    intro a ha b hb different
    have symmetric : Std.Symm (fun a b => cmp a b ≠ 0 ∧ cmp b a ≠ 0) := ⟨fun _ _ pair => pair.symm⟩
    exact (nonzero.forall ha hb different).1
  have single : ∀ a b, a ∈ sortBy cmp rows → b ∈ sortBy cmp shuffled → cmp a b ≤ 0 → cmp b a ≤ 0 → a = b := by
    intro a b ha hb before behind
    have inRows := (sortBy_perm cmp rows).mem_iff.mp ha
    have among := (members b).mp ((sortBy_perm cmp shuffled).mem_iff.mp hb)
    by_contra different
    exact tieless a inRows b among different (le_antisymm before ((preorder.not_after among inRows).mp behind))
  apply List.Perm.eq_of_pairwise single
  · exact sortBy_sorted preorder
  · exact sortBy_sorted (preorder.mono (fun row member => (members row).mp member))
  · exact (sortBy_perm cmp rows).trans (perm.trans (sortBy_perm cmp shuffled).symm)

end

variable [IsOrderedAddMonoid K]

section
variable {cmp other : α → α → K} {measure : α → Option K} {keys : Set α} {a b c : α}

theorem PreorderOn.reverse (preorder : PreorderOn cmp keys) : PreorderOn (fun a b => -cmp a b) keys := by
  constructor
  · intro a ha b hb
    simpa only [neg_pos,neg_lt_zero] using preorder.opposite' ha hb
  · intro a ha b hb c hc
    simp only [neg_nonpos]
    intro first second
    apply (preorder.not_after hc ha).mp
    exact preorder.trans c hc b hb a ha ((preorder.not_after hc hb).mpr second) ((preorder.not_after hb ha).mpr first)

theorem Separated.of_preorder (ordered : PreorderOn other keys) (preorder : PreorderOn (mixed measure other) keys) :
    Separated measure other keys := by
  intro n hn m hm t ht x y nx my unmeasured
  have before : mixed measure other n t = other n t := mixed_right unmeasured
  have behind : mixed measure other m t = other m t := mixed_right unmeasured
  constructor
  · intro less
    by_contra between
    obtain ⟨first,second⟩ := not_or.mp between
    have round : mixed measure other m n ≤ 0 := by
      apply preorder.trans m hm t ht n hn
      · rw [behind]
        exact (ordered.not_after hm ht).mpr (not_lt.mp second)
      · rw [mixed_left unmeasured]
        exact (ordered.not_after ht hn).mpr (not_lt.mp first)
    rw [mixed_measured my nx,sub_nonpos] at round
    exact absurd less (not_lt.mpr round)
  · intro same
    have alike := preorder.alike hn hm ht ((mixed_measured nx my).trans (sub_eq_zero.mpr same))
    rwa [before,behind] at alike

theorem Separated.preorder (ordered : PreorderOn other keys) (separated : Separated measure other keys) :
    PreorderOn (mixed measure other) keys := by
  constructor
  · intro a ha b hb
    cases known : measure a with
    | none => rw [mixed_left known,mixed_right known]; exact ordered.opposite a ha b hb
    | some x =>
      cases value : measure b with
      | none => rw [mixed_left value,mixed_right value]; exact ordered.opposite a ha b hb
      | some y => rw [mixed_measured known value,mixed_measured value known,sub_pos,sub_neg]
  · intro a ha b hb c hc
    cases va : measure a with
    | none =>
      cases vb : measure b with
      | none => rw [mixed_left va,mixed_left vb,mixed_left va]; exact ordered.trans a ha b hb c hc
      | some y =>
        cases vc : measure c with
        | none => rw [mixed_left va,mixed_right vc,mixed_right vc]; exact ordered.trans a ha b hb c hc
        | some z =>
          rw [mixed_left va,mixed_measured vb vc,mixed_left va,sub_nonpos]
          intro under climbs
          by_contra overtaken
          have beyond := not_le.mp overtaken
          rcases climbs.lt_or_eq with less | same
          · rcases (separated b hb c hc a ha y z vb vc va).1 less with below | above
            · exact absurd ((ordered.opposite' hb ha).mp below) (not_lt.mpr under)
            · exact lt_asymm above beyond
          · have level := ((separated b hb c hc a ha y z vb vc va).2 same).1
            have below := (ordered.opposite' hb ha).not.mpr (not_lt.mpr under)
            exact below (level.mpr ((ordered.opposite' hc ha).mpr beyond))
    | some x =>
      cases vb : measure b with
      | none =>
        cases vc : measure c with
        | none => rw [mixed_right vb,mixed_left vb,mixed_right vc]; exact ordered.trans a ha b hb c hc
        | some z =>
          rw [mixed_right vb,mixed_left vb,mixed_measured va vc,sub_nonpos]
          intro under beyond
          by_contra falls
          rcases (separated c hc a ha b hb z x vc va vb).1 (not_le.mp falls) with below | above
          · exact absurd ((ordered.opposite' hc hb).mp below) (not_lt.mpr beyond)
          · exact absurd ((ordered.opposite' hb ha).mp above) (not_lt.mpr under)
      | some y =>
        cases vc : measure c with
        | none =>
          rw [mixed_measured va vb,mixed_right vc,mixed_right vc,sub_nonpos]
          intro climbs under
          by_contra overtaken
          have beyond := not_le.mp overtaken
          rcases climbs.lt_or_eq with less | same
          · rcases (separated a ha b hb c hc x y va vb vc).1 less with below | above
            · exact lt_asymm below beyond
            · exact absurd ((ordered.opposite' hc hb).mp above) (not_lt.mpr under)
          · exact absurd (((separated a ha b hb c hc x y va vb vc).2 same).2.mp beyond) (not_lt.mpr under)
        | some z =>
          rw [mixed_measured va vb,mixed_measured vb vc,mixed_measured va vc,sub_nonpos,sub_nonpos,sub_nonpos]
          exact le_trans

end

end Ownly.Comparators
