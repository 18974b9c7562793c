import Ownly.Storage.Effects

-- put_stream under a striped plan: the rows it leaves for a key, and what put_routed, which
-- plans once more, has written where.
namespace Ownly.Storage
open List

def writtenRows (snapshots : List NodeSnapshot) (key : Key) (object : Object) : List StripePartRow :=
  if snapshots = [] then [⟨nodePrimary,key,0,object.bytes.length⟩]
  else match planUpload snapshots (baseKey key) object.bytes.length with
    | .error _ => []
    | .ok (.single nodeId _) => [⟨nodeId,key,0,object.bytes.length⟩]
    | .ok (.striped _ parts) => parts.map StripePartPlan.row

-- The rows of the key are these, and the bytes stored at them make up the body.
def Records (snapshots : List NodeSnapshot) (key : Key) (object : Object) (after : Store) : Prop :=
  loadStripeParts after.tables (baseKey key) = writtenRows snapshots key object ∧
  ∃ chunks, Filed after object.contentType (loadStripeParts after.tables (baseKey key)) chunks ∧ chunks.flatten = object.bytes

section
variable {net : Network} {key : Key} {object : Object} {store after : Store} {primary : String} {plans parts : List StripePartPlan}
  {rows : List StripePartRow} {index : Nat}

theorem putStream_striped {again : List NodeSnapshot} (fresh : isDerivedSidecarKey key = true → resolveNodeForKey store.tables key = none)
    (striped : planUpload net.snapshots (baseKey key) object.bytes.length = .ok (.striped primary plans))
    (ran : putStream net again key object store = (after,.ok ())) :
    ∃ middle, putPlanned {net with snapshots := again} key object store = (middle,.ok ()) ∧
      after = {middle with tables := persistPlacement middle.tables (baseKey key) (.striped primary plans)} := by
  have some_node : net.snapshots ≠ [] := by
    intro none
    rw [none] at striped
    cases striped
  have planned : putStreamPlanned net again key object store = (after,.ok ()) ∧
      putRouted {net with snapshots := again} key object store = putPlanned {net with snapshots := again} key object store := by
    unfold putStream at ran
    unfold putRouted
    split at ran
    · rename_i derived
      rw [fresh derived] at ran
      exact ⟨ran,by simp only [derived,fresh derived,if_true]⟩
    · rename_i base
      exact ⟨ran,if_neg base⟩
  rw [putStreamPlanned,if_neg some_node,striped,planned.2] at planned
  obtain ⟨middle,put,persisted⟩ := chain_ok planned.1
  exact ⟨middle,put,(Prod.mk.inj persisted).1.symm⟩

theorem totalLength_append (parts more : List StripePartPlan) : totalLength (parts ++ more) = totalLength parts + totalLength more := by
  induction parts with
  | nil => exact (Int.zero_add _).symm
  | cons part rest ih => simp only [cons_append,totalLength,ih,Int.add_assoc]

theorem numbered_append (numbered : Numbered key index (parts ++ plans)) : ∃ next, Numbered key next plans := by
  induction parts generalizing index with
  | nil => exact ⟨index,numbered⟩
  | cons part rest ih => exact ih numbered.2.2

theorem row_inj (same : plans.map StripePartPlan.row = parts.map StripePartPlan.row) : plans = parts := by
  refine map_injective_iff.mpr ?_ same
  rintro ⟨⟩ ⟨⟩ equal
  cases equal
  rfl

section
variable (numbered : Numbered key index parts) (sizes : totalLength plans = totalLength parts)
include numbered sizes

theorem plans_eq
    (same : plans.map StripePartPlan.row ++ rows = parts.map StripePartPlan.row) :
    plans = parts := by
  have front : parts = parts.take plans.length ++ parts.drop plans.length := (take_append_drop _ _).symm
  have head : plans = parts.take plans.length := by
    apply row_inj
    rw [map_take,← same]
    simp
  rw [front,totalLength_append,← head] at sizes
  rw [front] at numbered
  obtain ⟨_,rest⟩ := numbered_append numbered
  cases more : parts.drop plans.length with
  | nil => rw [front,more,append_nil,← head]
  | cons part later =>
    rw [more] at rest sizes
    have positive := rest.2.1
    have nonneg : ∀ (next : Nat) (others : List StripePartPlan), Numbered key next others → 0 ≤ totalLength others := by
      intro next others
      induction others generalizing next with
      | nil => exact fun _ => Int.le_refl 0
      | cons other others ih => exact fun known => by have := ih _ known.2.2; have := known.2.1; simp only [totalLength]; omega
    have := nonneg _ later rest.2.2
    simp only [totalLength] at sizes
    omega

theorem upsert_twice :
    upsertParts plans (upsertParts parts rows) = parts.map StripePartPlan.row ↔ plans = parts ∧ rows.length ≤ plans.length := by
  constructor
  · intro same
    obtain rfl := plans_eq numbered sizes same
    have nothing : rows.drop plans.length = [] := by simpa [upsertParts] using same
    exact ⟨rfl,drop_eq_nil_iff.mp nothing⟩
  · rintro ⟨rfl,covered⟩
    rw [upsertParts_all covered]
    exact upsertParts_all (by simp)

end

theorem stripe_small {size : Int} (base : Key) (nodes : List NodeSnapshot) (small : ∀ node ∈ nodes, remainingBytes node < size)
    (index : Nat) (offset remaining : Int) : ∀ part ∈ (stripe base index offset remaining nodes).1, part.byteLength < size := by
  induction nodes generalizing index offset remaining with
  | nil => simp [stripe]
  | cons node rest ih =>
    have others := ih (fun other member => small other (mem_cons_of_mem _ member))
    have own := small node mem_cons_self
    unfold stripe
    split
    · simp
    · split
      · exact others index offset remaining
      · intro part member
        rcases mem_cons.mp member with rfl | later
        · exact Int.lt_of_le_of_lt (Int.min_le_left _ _) own
        · exact others _ _ _ part later

theorem planUpload_parts {nodes : List NodeSnapshot} {base : Key} {size : Nat} (planned : planUpload nodes base size = .ok (.striped primary plans)) :
    ∀ part ∈ plans, part.byteLength < asI64 size := by
  unfold planUpload at planned
  split at planned
  · cases planned
  · split at planned
    · cases planned
    · split at planned
      · cases planned
      · rename_i full
        have small : ∀ node ∈ nodes, remainingBytes node < asI64 size :=
          fun node member => Int.not_le.mp (fun fits => find?_eq_none.mp full node member (decide_eq_true fits))
        have parts := stripe_small base nodes small 0 0 (asI64 size)
        generalize stripe base 0 0 (asI64 size) nodes = striped at planned parts
        obtain ⟨list,unplaced⟩ := striped
        dsimp only at planned parts
        split at planned
        · cases planned
        · split at planned
          · cases planned
          · cases planned
            exact parts

theorem rows_other {nodeId : String} (sized : object.bytes.length < 2^64)
    (striped : planUpload net.snapshots (baseKey key) object.bytes.length = .ok (.striped primary plans)) :
    upsertParts plans rows ≠ [⟨nodeId,key,0,object.bytes.length⟩] := by
  obtain ⟨nonempty,-,positive,-⟩ := planUpload_striped striped
  intro same
  obtain ⟨part,rest,rfl⟩ := exists_cons_of_ne_nil nonempty
  have short := planUpload_parts striped part mem_cons_self
  have length := congrArg StripePartRow.byteLength (List.cons.inj same).1
  rw [asI64_exact sized positive] at short
  simp only [StripePartPlan.row] at length
  omega

-- What is recorded is what was written exactly when both looks at the nodes give one plan, and
-- no rows of an earlier body are left behind it.
theorem put_stream_records_iff (net : Network) (again : List NodeSnapshot) (key : Key) (object : Object) (store after : Store)
    (primary : String) (plans : List StripePartPlan) (sized : object.bytes.length < 2^64)
    (fresh : isDerivedSidecarKey key = true → resolveNodeForKey store.tables key = none)
    (striped : planUpload net.snapshots (baseKey key) object.bytes.length = .ok (.striped primary plans))
    (ran : putStream net again key object store = (after,.ok ())) :
    Records again key object after ↔
      (∃ second, planUpload again (baseKey key) object.bytes.length = .ok (.striped second plans)) ∧
      (loadStripeParts store.tables (baseKey key)).length ≤ plans.length := by
  obtain ⟨middle,put,rfl⟩ := putStream_striped fresh striped ran
  obtain ⟨_,numbered,positive,length⟩ := planUpload_striped striped
  rw [asI64_exact sized positive] at length
  unfold Records writtenRows
  rw [persist_parts]
  unfold putPlanned at put
  split at put
  · rename_i nodes
    have none : again = [] := nodes
    rw [if_pos none,none]
    refine iff_of_false (fun records => rows_other sized striped records.1) ?_
    rintro ⟨⟨_,planned⟩,-⟩
    cases planned
  · rename_i nodes
    have some_node : again ≠ [] := nodes
    rw [if_neg some_node]
    cases second : planUpload again (baseKey key) object.bytes.length with
    | error e => simp [second] at put
    | ok plan =>
      simp only [second] at put
      cases plan with
      | single nodeId placed =>
        obtain ⟨before,wrote,persisted⟩ := chain_ok put
        obtain rfl := (Prod.mk.inj persisted).1
        exact iff_of_false (fun records => rows_other sized striped records.1) (by simp)
      | striped other parts =>
        obtain ⟨before,wrote,persisted⟩ := chain_ok put
        obtain rfl := (Prod.mk.inj persisted).1
        obtain ⟨_,numbered',positive',length'⟩ := planUpload_striped second
        rw [asI64_exact sized positive'] at length'
        obtain ⟨-,tables,-,filed⟩ := putParts_ok numbered' wrote
        dsimp only
        rw [persist_parts,tables,upsert_twice numbered' (length.trans length'.symm)]
        constructor
        · rintro ⟨⟨rfl,covered⟩,-⟩
          exact ⟨⟨other,rfl⟩,covered⟩
        · rintro ⟨⟨_,same⟩,covered⟩
          cases same
          refine ⟨⟨rfl,covered⟩,_,?_,cut_flatten numbered' (by rw [length']; exact Int.zero_add _)⟩
          rw [(upsert_twice numbered' rfl).mpr ⟨rfl,covered⟩]
          exact filed

end

def emptyStore : Store := ⟨⟨KeyMap.empty,KeyMap.empty,KeyMap.empty⟩,KeyMap.empty⟩

def reportKey : Key := ["users","u","files","f"]

def threeBytes : Object := ⟨"text/plain",[1,2,3]⟩

def halves : Network := ⟨[⟨"a",some 2,0⟩,⟨"b",some 2,0⟩],fun _ => true,fun _ => true⟩

def halvesPlan : List StripePartPlan := [⟨"a",partKey reportKey 0,0,2⟩,⟨"b",partKey reportKey 1,2,1⟩]

theorem halves_striped : planUpload halves.snapshots (baseKey reportKey) threeBytes.bytes.length = .ok (.striped "a" halvesPlan) := by
  decide +kernel

theorem halves_recorded : Records halves.snapshots reportKey threeBytes (putStream halves halves.snapshots reportKey threeBytes emptyStore).1 :=
  (put_stream_records_iff halves halves.snapshots reportKey threeBytes emptyStore _ "a" halvesPlan (by decide) (by decide) halves_striped rfl).mpr
    ⟨⟨"a",halves_striped⟩,by decide⟩

theorem halves_grown : ¬∀ net again key object store after primary plans, object.bytes.length < 2^64 →
    (isDerivedSidecarKey key = true → resolveNodeForKey store.tables key = none) →
    planUpload net.snapshots (baseKey key) object.bytes.length = .ok (.striped primary plans) →
    putStream net again key object store = (after,.ok ()) → Records again key object after := by
  intro all
  have records := all halves [⟨"a",some 9,0⟩] reportKey threeBytes emptyStore _ "a" halvesPlan (by decide) (by decide) halves_striped rfl
  exact absurd (congrArg List.length records.1) (by decide +kernel)

end Ownly.Storage
