import Ownly.Lib.JsString

-- `[...text]`: the characters of a string of JavaScript as strings of one or two units.
namespace JsString
variable {text rest : Str} {unit : Nat}

def spread : Str → List Str
  | [] => []
  | [unit] => [[unit]]
  | unit :: next :: rest =>
    if High unit ∧ Low next then [unit,next] :: spread rest
    else [unit] :: spread (next :: rest)

theorem spread_flatten (text : Str) : (spread text).flatten = text := by
  induction text using spread.induct with
  | case1 => rfl
  | case2 unit => rfl
  | case3 unit next rest pair ih => simp [spread,pair,ih]
  | case4 unit next rest apart ih => simp [spread,apart,ih]

theorem spread_cons (unit : Nat) (rest : Str) : ∃ tail more, spread (unit :: rest) = (unit :: tail) :: more := by
  cases rest with
  | nil => exact ⟨[],[],rfl⟩
  | cons next rest =>
    by_cases pair : High unit ∧ Low next
    · exact ⟨[next],spread rest,by simp [spread,pair]⟩
    · exact ⟨[],spread (next :: rest),by simp [spread,pair]⟩

theorem spread_take (text : Str) (k : Nat) : spread ((spread text).take k).flatten = (spread text).take k := by
  induction text using spread.induct generalizing k with
  | case1 => simp [spread]
  | case2 unit => cases k <;> simp [spread]
  | case3 unit next rest pair ih => cases k <;> simp [spread,pair,ih]
  | case4 unit next rest apart ih =>
    cases k with
    | zero => simp [spread]
    | succ k =>
      cases k with
      | zero => simp [spread,apart]
      | succ k =>
        obtain ⟨tail,more,start⟩ := spread_cons next rest
        have kept := ih (k + 1)
        simp only [start,List.take_succ_cons,List.flatten_cons,List.cons_append] at kept
        simp [spread,apart,start,kept]

theorem spread_drop (text : Str) (k : Nat) : spread ((spread text).drop k).flatten = (spread text).drop k := by
  induction text using spread.induct generalizing k with
  | case1 => simp [spread]
  | case2 unit => cases k <;> simp [spread]
  | case3 unit next rest pair ih => cases k <;> simp [spread,pair,ih,spread_flatten]
  | case4 unit next rest apart ih => cases k <;> simp [spread,apart,ih,spread_flatten]

theorem spread_block (text : Str) (start k : Nat) :
    spread (((spread text).drop start).take k).flatten = ((spread text).drop start).take k := by
  have same := spread_take ((spread text).drop start).flatten k
  rwa [spread_drop] at same

end JsString
