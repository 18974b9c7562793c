import Mathlib.Data.List.Induction

-- Numbered slots, one for each task that was begun: what a write and an append leave
-- in them.
namespace Slots
open List
variable {α : Type*} {slots : List α} {new found : α} {i j : Nat}

theorem set_cases (present : (slots.set i new)[j]? = some found) :
    (j = i ∧ found = new) ∨ (j ≠ i ∧ slots[j]? = some found) := by
  by_cases same : j = i
  · subst j
    obtain ⟨inside,_⟩ := List.getElem?_eq_some_iff.mp present
    rw [getElem?_set_self (by simpa using inside)] at present
    exact .inl ⟨rfl,(Option.some.inj present).symm⟩
  · rw [getElem?_set_ne (fun eq => same eq.symm)] at present
    exact .inr ⟨same,present⟩

theorem append_cases (present : (slots ++ [new])[j]? = some found) :
    (j = slots.length ∧ found = new) ∨ slots[j]? = some found := by
  rcases Nat.lt_or_ge j slots.length with less | past
  · rw [getElem?_append_left less] at present
    exact .inr present
  · rw [getElem?_append_right past] at present
    obtain ⟨inside,same⟩ := List.getElem?_eq_some_iff.mp present
    have first : j - slots.length = 0 := Nat.lt_one_iff.mp inside
    rw [first,getElem?_cons_zero] at present
    exact .inl ⟨by omega,(Option.some.inj present).symm⟩

theorem filter_last {p : α → Bool} (last : (slots.filter p).getLast? = some found) :
    ∃ k, slots[k]? = some found ∧ p found = true ∧ ∀ (j : Nat) (other : α), k < j → slots[j]? = some other → p other = false := by
  induction slots using List.reverseRecOn with
  | nil => cases last
  | append_singleton rest new ih =>
    rw [filter_append,filter_cons,filter_nil] at last
    cases holds : p new with
    | true =>
      rw [if_pos holds,getLast?_append,getLast?_singleton] at last
      obtain rfl : new = found := Option.some.inj last
      refine ⟨rest.length,getElem?_concat_length,holds,?_⟩
      intro j other later present
      obtain ⟨inside,_⟩ := List.getElem?_eq_some_iff.mp present
      rw [length_append,length_singleton] at inside
      omega
    | false =>
      rw [holds,if_neg Bool.false_ne_true,append_nil] at last
      obtain ⟨k,present,meets,none⟩ := ih last
      obtain ⟨inside,_⟩ := List.getElem?_eq_some_iff.mp present
      refine ⟨k,by rw [getElem?_append_left inside]; exact present,meets,?_⟩
      intro j other later found
      rcases append_cases found with ⟨_,same⟩ | before
      · rw [same]; exact holds
      · exact none j other later before

end Slots
