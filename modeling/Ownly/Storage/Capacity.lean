import Ownly.Lib.Tiling
import Ownly.Storage.Effects
import Mathlib

-- When plan_upload finds room, and what it then gives to which node.
namespace Ownly.Storage
open List

def UploadPlacementPlan.parts (sizeBytes : Nat) : UploadPlacementPlan → List StripePartPlan
  | .single nodeId objectKey => [⟨nodeId,objectKey,0,sizeBytes⟩]
  | .striped _ parts => parts

def StripePartPlan.extent (part : StripePartPlan) : Int × Int := (part.byteOffset,part.byteLength)

def totalRemaining (nodes : List NodeSnapshot) : Int := (nodes.map remainingBytes).sum

variable {nodes : List NodeSnapshot} {node : NodeSnapshot} {key : Key} {size : Nat} {plan : UploadPlacementPlan}

theorem totalRemaining_nonneg (nodes : List NodeSnapshot) : 0 ≤ totalRemaining nodes := by
  refine sum_nonneg (fun free member => ?_)
  obtain ⟨node,_,rfl⟩ := mem_map.mp member
  exact remainingBytes_nonneg node

theorem remainingBytes_le_total (member : node ∈ nodes) : remainingBytes node ≤ totalRemaining nodes := by
  refine single_le_sum (fun free found => ?_) _ (mem_map_of_mem member)
  obtain ⟨other,_,rfl⟩ := mem_map.mp found
  exact remainingBytes_nonneg other

theorem stripe_left (key : Key) (nodes : List NodeSnapshot) (index : Nat) (offset remaining : Int) (nonneg : 0 ≤ remaining) :
    (stripe key index offset remaining nodes).2 = max 0 (remaining - totalRemaining nodes) := by
  induction nodes generalizing index offset remaining with
  | nil => simp [stripe,totalRemaining,nonneg]
  | cons node rest ih =>
    have free := remainingBytes_nonneg node
    have later := totalRemaining_nonneg rest
    have total : totalRemaining (node :: rest) = remainingBytes node + totalRemaining rest := sum_cons
    unfold stripe
    split
    · dsimp only
      omega
    · split
      · rw [ih index offset remaining nonneg]
        omega
      · dsimp only
        rw [ih (index + 1) (offset + min (remainingBytes node) remaining) (remaining - min (remainingBytes node) remaining) (by omega)]
        omega

theorem stripe_tiles (key : Key) (nodes : List NodeSnapshot) (index : Nat) (offset remaining : Int) :
    Tiling.Tiles offset ((stripe key index offset remaining nodes).1.map StripePartPlan.extent)
      (offset + (remaining - (stripe key index offset remaining nodes).2)) := by
  induction nodes generalizing index offset remaining with
  | nil => simp [stripe,Tiling.Tiles]
  | cons node rest ih =>
    unfold stripe
    split
    · simp [Tiling.Tiles]
    · split
      · exact ih index offset remaining
      · dsimp only
        have tiles := ih (index + 1) (offset + min (remainingBytes node) remaining) (remaining - min (remainingBytes node) remaining)
        have taken : 0 < min (remainingBytes node) remaining := by omega
        refine ⟨rfl,taken,?_⟩
        convert tiles using 1
        omega

theorem stripe_nodes (index : Nat) (offset remaining : Int) :
    List.Sublist ((stripe key index offset remaining nodes).1.map StripePartPlan.nodeId) (nodes.map NodeSnapshot.id) := by
  induction nodes generalizing index offset remaining with
  | nil => exact .slnil
  | cons node rest ih =>
    unfold stripe
    split
    · exact nil_sublist _
    · split
      · exact (ih index offset remaining).cons _
      · exact (ih _ _ _).cons_cons _

theorem stripe_fits (index : Nat) (offset remaining : Int) (part : StripePartPlan)
    (member : part ∈ (stripe key index offset remaining nodes).1) :
    ∃ node ∈ nodes, node.id = part.nodeId ∧ part.byteLength ≤ remainingBytes node := by
  induction nodes generalizing index offset remaining with
  | nil => cases member
  | cons node rest ih =>
    unfold stripe at member
    split at member
    · cases member
    · split at member
      · obtain ⟨found,among,fits⟩ := ih index offset remaining member
        exact ⟨found,mem_cons_of_mem _ among,fits⟩
      · rcases mem_cons.mp member with rfl | later
        · exact ⟨node,mem_cons_self,rfl,min_le_left _ _⟩
        · obtain ⟨found,among,fits⟩ := ih _ _ _ later
          exact ⟨found,mem_cons_of_mem _ among,fits⟩

theorem asI64_small (word : size < 2^63) : asI64 size = size := Int.bmod_eq_of_le (by omega) (by omega)

theorem planUpload_single (key : Key) (positive : 1 ≤ size) (word : size < 2^63) (room : ∃ node ∈ nodes, size ≤ remainingBytes node) :
    ∃ node ∈ nodes, size ≤ remainingBytes node ∧ planUpload nodes key size = .ok (.single node.id key) := by
  have cast := asI64_small word
  obtain ⟨node,member,fits⟩ := room
  cases found : nodes.find? (fun node => decide (asI64 size ≤ remainingBytes node)) with
  | none => exact absurd (decide_eq_true (by rw [cast]; exact fits)) (find?_eq_none.mp found node member)
  | some chosen =>
    have holds := find?_some found
    rw [decide_eq_true_iff,cast] at holds
    refine ⟨chosen,mem_of_find?_eq_some found,holds,?_⟩
    rw [planUpload,if_neg (ne_nil_of_mem member),if_neg (by omega),found]

theorem planUpload_many (key : Key) (positive : 1 ≤ size) (word : size < 2^63) (narrow : ∀ node ∈ nodes, remainingBytes node < size)
    (enough : size ≤ totalRemaining nodes) :
    ∃ primary, planUpload nodes key size = .ok (.striped primary (stripe key 0 0 size nodes).1) := by
  have cast := asI64_small word
  have some_node : nodes ≠ [] := by
    rintro rfl
    simp only [totalRemaining,map_nil,sum_nil] at enough
    omega
  have none_fits : nodes.find? (fun node => decide (asI64 size ≤ remainingBytes node)) = none := by
    refine find?_eq_none.mpr (fun node member fits => ?_)
    have less := narrow node member
    have reach := of_decide_eq_true fits
    omega
  have left := stripe_left key nodes 0 0 size (by omega)
  have tiles := (stripe_tiles key nodes 0 0 size).total
  rw [planUpload,if_neg some_node,if_neg (by omega),none_fits,cast]
  generalize stripe key 0 0 size nodes = striped at left tiles
  obtain ⟨parts,unplaced⟩ := striped
  dsimp only at left tiles ⊢
  rw [if_neg (by omega)]
  cases parts with
  | nil =>
    simp only [map_nil,sum_nil] at tiles
    omega
  | cons part rest => exact ⟨part.nodeId,rfl⟩

theorem planUpload_none (key : Key) (positive : 1 ≤ size) (word : size < 2^63) (short : totalRemaining nodes < size) :
    ∃ e, planUpload nodes key size = .error e := by
  have cast := asI64_small word
  have none_fits : nodes.find? (fun node => decide (asI64 size ≤ remainingBytes node)) = none := by
    refine find?_eq_none.mpr (fun node member fits => ?_)
    have less := remainingBytes_le_total member
    have reach := of_decide_eq_true fits
    omega
  have left := stripe_left key nodes 0 0 size (by omega)
  by_cases some_node : nodes = []
  · exact ⟨_,by rw [planUpload,if_pos some_node]⟩
  · refine ⟨.storage "no storage node has sufficient aggregate capacity for this upload",?_⟩
    rw [planUpload,if_neg some_node,if_neg (by omega),none_fits,cast]
    generalize stripe key 0 0 size nodes = striped at left
    obtain ⟨parts,unplaced⟩ := striped
    dsimp only at left ⊢
    rw [if_pos (by omega)]

theorem planUpload_cases (positive : 1 ≤ size) (word : size < 2^63) (planned : planUpload nodes key size = .ok plan) :
    (∃ node ∈ nodes, size ≤ remainingBytes node ∧ plan = .single node.id key) ∨
    (size ≤ totalRemaining nodes ∧ ∃ primary, plan = .striped primary (stripe key 0 0 size nodes).1) := by
  by_cases room : ∃ node ∈ nodes, (size : Int) ≤ remainingBytes node
  · obtain ⟨node,member,fits,single⟩ := planUpload_single key positive word room
    exact .inl ⟨node,member,fits,Except.ok.inj (planned.symm.trans single)⟩
  · have narrow : ∀ node ∈ nodes, remainingBytes node < size := fun node member => Int.not_le.mp (fun fits => room ⟨node,member,fits⟩)
    rcases lt_or_ge (totalRemaining nodes) size with short | enough
    · obtain ⟨e,refused⟩ := planUpload_none key positive word short
      cases planned.symm.trans refused
    · obtain ⟨primary,striped⟩ := planUpload_many key positive word narrow enough
      exact .inr ⟨enough,primary,Except.ok.inj (planned.symm.trans striped)⟩

theorem planUpload_error_iff (positive : 1 ≤ size) (word : size < 2^63) :
    (∃ e, planUpload nodes key size = .error e) ↔ totalRemaining nodes < size := by
  constructor
  · rintro ⟨e,refused⟩
    by_contra enough
    by_cases room : ∃ node ∈ nodes, (size : Int) ≤ remainingBytes node
    · obtain ⟨node,_,_,single⟩ := planUpload_single key positive word room
      cases refused.symm.trans single
    · obtain ⟨primary,striped⟩ := planUpload_many key positive word
        (fun node member => Int.not_le.mp (fun fits => room ⟨node,member,fits⟩)) (Int.not_lt.mp enough)
      cases refused.symm.trans striped
  · exact planUpload_none key positive word

theorem planUpload_sound_complete (nodes : List NodeSnapshot) (key : Key) (size : Nat) (positive : 1 ≤ size) (word : size < 2^63)
    (distinct : (nodes.map NodeSnapshot.id).Nodup) :
    ((∃ e, planUpload nodes key size = .error e) ↔ (nodes.map remainingBytes).sum < size) ∧
    (∀ plan, planUpload nodes key size = .ok plan →
      Tiling.Tiles 0 ((plan.parts size).map StripePartPlan.extent) size ∧
      (∀ x : Int, 0 ≤ x → x < size → ∃! piece, piece ∈ (plan.parts size).map StripePartPlan.extent ∧ Tiling.Holds piece x) ∧
      ((plan.parts size).map StripePartPlan.nodeId).Nodup ∧
      ∀ part ∈ plan.parts size, 0 < part.byteLength ∧
        ∃ node ∈ nodes, node.id = part.nodeId ∧ part.byteLength ≤ remainingBytes node) ∧
    ((∃ node ∈ nodes, size ≤ remainingBytes node) →
      ∃ node ∈ nodes, size ≤ remainingBytes node ∧ planUpload nodes key size = .ok (.single node.id key)) := by
  refine ⟨planUpload_error_iff positive word,?_,planUpload_single key positive word⟩
  intro plan planned
  have tiles : Tiling.Tiles 0 ((plan.parts size).map StripePartPlan.extent) size := by
    rcases planUpload_cases positive word planned with ⟨node,_,_,rfl⟩ | ⟨enough,primary,rfl⟩
    · have filled : (0 : Int) < size := by omega
      exact ⟨rfl,filled,Int.zero_add _⟩
    · have whole := stripe_tiles key nodes 0 0 size
      have all : (0 : Int) + (size - max 0 (size - totalRemaining nodes)) = size := by omega
      rw [stripe_left key nodes 0 0 size (by omega),all] at whole
      exact whole
  have once : ((plan.parts size).map StripePartPlan.nodeId).Nodup ∧
      ∀ part ∈ plan.parts size, ∃ node ∈ nodes, node.id = part.nodeId ∧ part.byteLength ≤ remainingBytes node := by
    rcases planUpload_cases positive word planned with ⟨node,member,fits,rfl⟩ | ⟨_,primary,rfl⟩
    · refine ⟨nodup_singleton _,fun part found => ?_⟩
      obtain rfl := mem_singleton.mp found
      exact ⟨node,member,rfl,fits⟩
    · exact ⟨(stripe_nodes 0 0 size).nodup distinct,stripe_fits 0 0 size⟩
  refine ⟨tiles,fun x low high => tiles.one low high,once.1,fun part member => ⟨?_,once.2 part member⟩⟩
  exact tiles.positive (mem_map_of_mem member)

theorem six_bytes_planned :
    (∃ e, planUpload [⟨"a",some 3,0⟩,⟨"b",some 9,5⟩] [] 6 = .error e) ↔ (3 : Int) + (4 + 0) < 6 :=
  (planUpload_sound_complete [⟨"a",some 3,0⟩,⟨"b",some 9,5⟩] [] 6 (by decide) (by decide) (by decide)).1

def limited (node : NodeSnapshot) : Bool := decide (remainingBytes node < i64Max)

theorem remainingBytes_uncapped (uncapped : capped node = false) : remainingBytes node = i64Max := by
  unfold remainingBytes
  cases cap : node.targetCapacityBytes with
  | none => rfl
  | some bytes =>
    simp only [capped,cap,Option.any_some,decide_eq_false_iff_not] at uncapped
    exact if_neg uncapped

theorem addRemaining_all (nodes : List NodeSnapshot) (total : Int) (anyCapped : Bool) (nonneg : 0 ≤ total) (bounded : total ≤ i64Max) :
    nodes.foldl addRemaining (total,anyCapped) =
      (min (total + totalRemaining (nodes.filter limited)) i64Max,anyCapped || nodes.any capped) := by
  induction nodes generalizing total anyCapped with
  | nil => simp [totalRemaining,bounded]
  | cons node rest ih =>
    have later := totalRemaining_nonneg (rest.filter limited)
    have free := remainingBytes_nonneg node
    rw [foldl_cons,any_cons]
    by_cases fits : limited node
    · have within := of_decide_eq_true fits
      have limit : capped node = true := by
        by_contra uncapped
        exact absurd (remainingBytes_uncapped (Bool.not_eq_true _ ▸ uncapped)) within.ne
      have sum : totalRemaining (node :: rest.filter limited) = remainingBytes node + totalRemaining (rest.filter limited) := sum_cons
      have step : addRemaining (total,anyCapped) node = (min (total + remainingBytes node) i64Max,true) := by
        have least : (-2^63 : Int) ≤ min (total + remainingBytes node) i64Max := le_min (by omega) (by decide)
        rw [addRemaining,if_pos limit,if_pos within,saturatingAdd,max_eq_right least]
      rw [step,ih _ _ (by simp only [i64Max]; omega) (min_le_right _ _),filter_cons_of_pos fits,sum,limit]
      simp only [Bool.true_or,Bool.or_true,Prod.mk.injEq,and_true]
      omega
    · have step : addRemaining (total,anyCapped) node = (total,anyCapped || capped node) := by
        cases limit : capped node <;> simp [addRemaining,limit,of_decide_eq_false (Bool.not_eq_true _ ▸ fits)]
      rw [step,ih _ _ nonneg bounded,filter_cons_of_neg fits,Bool.or_assoc]

theorem aggregate_exact (some_node : nodes ≠ []) : aggregateNetworkRemainingBytes nodes =
    if nodes.any capped then some (min (totalRemaining (nodes.filter limited)) i64Max) else none := by
  rw [aggregateNetworkRemainingBytes,if_neg some_node,addRemaining_all nodes 0 false (by decide) (by decide)]
  simp

theorem planUpload_ok_iff (positive : 1 ≤ size) (word : size < 2^63) :
    (∃ plan, planUpload nodes key size = .ok plan) ↔ size ≤ totalRemaining nodes := by
  have refused := @planUpload_error_iff nodes key size positive word
  cases planned : planUpload nodes key size with
  | ok plan => simpa [planned] using refused
  | error e => simpa [planned] using refused

-- The announced space is what placement can use unless nodes with a limit and nodes without one are
-- there together, and those with a limit have too little room.
theorem announced_iff (nodes : List NodeSnapshot) (key : Key) (size : Nat) (some_node : nodes ≠ [])
    (positive : 1 ≤ size) (word : size < 2^63) :
    ((∃ plan, planUpload nodes key size = .ok plan) ↔ ∀ left, aggregateNetworkRemainingBytes nodes = some left → size ≤ left) ↔
    ((∀ node ∈ nodes, capped node = false) ∨ (∀ node ∈ nodes, remainingBytes node < i64Max) ∨
      size ≤ totalRemaining (nodes.filter limited)) := by
  have room : (size : Int) ≤ i64Max := by simp only [i64Max]; omega
  rw [planUpload_ok_iff positive word,aggregate_exact some_node]
  cases limit : nodes.any capped with
  | false =>
    have uncapped : ∀ node ∈ nodes, capped node = false := fun node member => by
      simpa using any_eq_false.mp limit node member
    obtain ⟨node,member⟩ := exists_mem_of_ne_nil nodes some_node
    have all := remainingBytes_le_total member
    rw [remainingBytes_uncapped (uncapped node member)] at all
    simp only [Bool.false_eq_true,if_false,reduceCtorEq,false_implies,implies_true,iff_true]
    exact ⟨fun _ => .inl uncapped,fun _ => room.trans all⟩
  | true =>
    have told : (∀ left, some (min (totalRemaining (nodes.filter limited)) i64Max) = some left → (size : Int) ≤ left) ↔
        size ≤ totalRemaining (nodes.filter limited) := by
      simp [room]
    obtain ⟨node,member,has⟩ := any_eq_true.mp limit
    rw [if_pos rfl,told]
    by_cases narrow : ∀ node ∈ nodes, remainingBytes node < i64Max
    · rw [show nodes.filter limited = nodes from filter_eq_self.mpr (fun node member => decide_eq_true (narrow node member))]
      exact ⟨fun _ => .inr (.inl narrow),fun _ => Iff.rfl⟩
    · obtain ⟨wide,among,unbounded⟩ : ∃ node ∈ nodes, i64Max ≤ remainingBytes node := by
        simpa only [not_forall,not_lt,exists_prop] using narrow
      have fits : (size : Int) ≤ totalRemaining nodes := (room.trans unbounded).trans (remainingBytes_le_total among)
      refine ⟨fun same => .inr (.inr (same.mp fits)),?_⟩
      rintro (uncapped | narrow' | enough)
      · exact absurd has (by simp [uncapped node member])
      · exact absurd narrow' narrow
      · exact ⟨fun _ => enough,fun _ => fits⟩

-- A full node, and one without a limit.
theorem announced_nothing : ¬∀ (nodes : List NodeSnapshot) (key : Key) (size : Nat), nodes ≠ [] → (∀ node ∈ nodes, 0 ≤ node.usedBytes) →
    1 ≤ size → size < 2^63 →
    ((∃ plan, planUpload nodes key size = .ok plan) ↔ ∀ left, aggregateNetworkRemainingBytes nodes = some left → size ≤ left) := by
  intro announced
  have told := announced [⟨"a",some 4,4⟩,⟨"b",none,0⟩] [] 1 (by decide) (by decide) (by decide) (by decide)
  exact absurd (told.mp ⟨_,rfl⟩ 0 rfl) (by decide)

theorem announced_single : ((∃ plan, planUpload [⟨"a",some 4,1⟩] [] 3 = .ok plan) ↔
    ∀ left, aggregateNetworkRemainingBytes [⟨"a",some 4,1⟩] = some left → (3 : Int) ≤ left) :=
  (announced_iff [⟨"a",some 4,1⟩] [] 3 (by decide) (by decide) (by decide)).mpr (.inr (.inl (by decide)))

end Ownly.Storage
