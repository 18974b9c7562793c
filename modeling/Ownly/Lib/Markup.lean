import Ownly.Lib.Text
import Mathlib.Data.List.Infix

-- Tags and attributes of marked-up text, as patterns over the text find them, and
-- replacement texts with their dollar patterns.
namespace Markup
open Text (Line)
open List Option Function

-- The text starts with `lead`, where `fold` makes the same of what counts as the same.
def leads (fold : Char → Char) (lead text : Line) : Bool := (lead.map fold).isPrefixOf (text.map fold)

-- What is before and behind the first place of `lead` in the text.
def cut (fold : Char → Char) (lead : Line) : Line → Option (Line × Line)
  | [] => none
  | c :: rest =>
    if leads fold lead (c :: rest) then some ([],(c :: rest).drop lead.length)
    else (cut fold lead rest).map (fun parts => (c :: parts.1,parts.2))

def contains (fold : Char → Char) (needle text : Line) : Bool := (cut fold needle text).isSome

def isWord (c : Char) : Bool := c.isAlphanum || c == '_'

-- The group of `\b([^>]*)>` right here, and what follows.
def groupAt (text : Line) : Option (Line × Line) :=
  if text.head?.all (fun c => !isWord c) then
    match text.dropWhile (fun c => c != '>') with
    | [] => none
    | _ :: after => some (text.takeWhile (fun c => c != '>'),after)
  else none

-- `<name\b([^>]*)>`
def tagAt (name text : Line) : Option (Line × Line) :=
  if leads Char.toLower ('<' :: name) text then groupAt (text.drop (name.length + 1)) else none

-- The groups of all of them, one after the other; `skip` characters belong to the last one.
def tags (name : Line) : Nat → Line → List Line
  | _,[] => []
  | skip + 1,_ :: rest => tags name skip rest
  | 0,c :: rest =>
    match tagAt name (c :: rest) with
    | some (attrs,_) => attrs :: tags name (name.length + attrs.length + 1) rest
    | none => tags name 0 rest

def tagText (name attrs : Line) : Line := '<' :: name ++ attrs ++ ['>']

def findTag (name : Line) (holds : Line → Bool) : Line → Option Line
  | [] => none
  | c :: rest =>
    match (tagAt name (c :: rest)).filter (fun tag => holds tag.1) with
    | some (attrs,_) => some ((c :: rest).take (name.length + attrs.length + 2))
    | none => findTag name holds rest

-- `name="([^"]*)"`
def attributeOf (name attrs : Line) : Option Line :=
  (cut Char.toLower (name ++ ['=','"']) attrs).bind (fun parts =>
    if '"' ∈ parts.2 then some (parts.2.takeWhile (fun c => c != '"')) else none)

-- The first element of a name: before it, it, and after it. `inside` is where its
-- closing tag is looked for, behind its name.
def element (name : Line) (inside : Line → Option Line) : Line → Option (Line × Line × Line)
  | [] => none
  | c :: rest =>
    let here := if leads Char.toLower ('<' :: name) (c :: rest) then
        (inside ((c :: rest).drop (name.length + 1))).bind (cut Char.toLower ("</".toList ++ name ++ ['>']))
      else none
    match here with
    | some (_,after) => some ([],(c :: rest).take ((c :: rest).length - after.length),after)
    | none => (element name inside rest).map (fun parts => (c :: parts.1,parts.2))

-- Where `<name\b` stands first.
def openingAt (name : Line) : Line → Option (Line × Line)
  | [] => none
  | c :: rest =>
    if leads Char.toLower ('<' :: name) (c :: rest) && ((c :: rest).drop (name.length + 1)).head?.all (fun d => !isWord d) then
      some ([],c :: rest)
    else (openingAt name rest).map (fun parts => (c :: parts.1,parts.2))

-- The text put in for a match by a replacement without groups.
def substitute (matched before after : Line) : Line → Line
  | '$' :: '$' :: rest => '$' :: substitute matched before after rest
  | '$' :: '&' :: rest => matched ++ substitute matched before after rest
  | '$' :: '`' :: rest => before ++ substitute matched before after rest
  | '$' :: '\'' :: rest => after ++ substitute matched before after rest
  | c :: rest => c :: substitute matched before after rest
  | [] => []

-- No dollar sign stands before one of the characters that make a pattern of it.
def verbatim : Line → Bool
  | c :: rest => !(c == '$' && rest.head?.any (fun d => decide (d ∈ ['$','&','`','\'']))) && verbatim rest
  | [] => true

-- `text.replace(needle, replacement)`
def replaceFirst (fold : Char → Char) (needle replacement text : Line) : Line :=
  match cut fold needle text with
  | some (before,after) => before ++ substitute ((text.drop before.length).take needle.length) before after replacement ++ after
  | none => text

def Closed (text : Line) : Prop := ∀ u v,text = u ++ '<' :: v → '>' ∈ v

section lemmas
variable {fold : Char → Char} {name lead text rest attrs before after u v : Line} {c : Char} {skip : Nat} {groups : List Line}
  {sign : Char}

theorem substitute_verbatim {matched : Line} (plain : verbatim text = true) : substitute matched before after text = text := by
  fun_induction substitute matched before after text with
  | case1 => simp [verbatim] at plain
  | case2 => simp [verbatim] at plain
  | case3 => simp [verbatim] at plain
  | case4 => simp [verbatim] at plain
  | case5 c rest _ _ _ _ ih =>
    simp only [verbatim,Bool.and_eq_true] at plain
    rw [ih plain.2]
  | case6 => rfl

theorem Closed.tail (closed : Closed (c :: rest)) : Closed rest := fun u v same => closed (c :: u) v (by rw [same]; rfl)

theorem Closed.head (closed : Closed ('<' :: rest)) : '>' ∈ rest := closed [] rest rfl

theorem leads_append (clear : ∀ c ∈ lead,fold c ≠ fold '>') (marked : '>' ∈ text) : leads fold lead (text ++ rest) = leads fold lead text := by
  induction lead generalizing text with
  | nil => simp [leads]
  | cons d lead ih =>
    cases text with
    | nil => cases marked
    | cons c text =>
      simp only [leads,map_cons,cons_append,isPrefixOf_cons_cons]
      by_cases same : fold d = fold c
      · have later : '>' ∈ text := by
          rcases mem_cons.mp marked with rfl | later
          · exact absurd same (clear d mem_cons_self)
          · exact later
        have rest_ := ih (fun e member => clear e (mem_cons_of_mem _ member)) later
        simp only [leads] at rest_
        rw [rest_]
      · rw [beq_eq_false_iff_ne.mpr same]
        rfl

theorem leads_length (starts : leads fold lead text = true) : lead.length ≤ text.length := by
  have length := ( isPrefixOf_iff_prefix.mp starts).length_le
  simpa using length

theorem mem_drop_of_leads (clear : ∀ c ∈ lead,fold c ≠ fold '>') (starts : leads fold lead text = true) (marked : '>' ∈ text) :
    '>' ∈ text.drop lead.length := by
  induction lead generalizing text with
  | nil => exact marked
  | cons d lead ih =>
    cases text with
    | nil => cases marked
    | cons c text =>
      simp only [leads,map_cons,isPrefixOf_cons_cons,Bool.and_eq_true,beq_iff_eq] at starts
      rcases mem_cons.mp marked with rfl | later
      · exact absurd starts.1 (clear d mem_cons_self)
      · exact ih (fun e member => clear e (mem_cons_of_mem _ member)) starts.2 later

theorem lower_sign (small : sign.val < 'a'.val) (lower : c.toLower = sign) : c = sign := by
  unfold Char.toLower at lower
  split at lower
  · rename_i upper
    have value : c.val + ('a'.val - 'A'.val) = sign.val := congrArg Char.val lower
    rw [← value] at small
    obtain ⟨least,most⟩ := upper
    simp only [ge_iff_le,UInt32.le_iff_toNat_le,UInt32.lt_iff_toNat_lt,UInt32.toNat_add] at least most small
    have shift : ('a'.val - 'A'.val).toNat = 32 := rfl
    have first : 'A'.val.toNat = 65 := rfl
    have last : 'Z'.val.toNat = 90 := rfl
    have bound : 'a'.val.toNat = 97 := rfl
    omega
  · exact lower

theorem clear_lower (clear : '>' ∉ lead) : ∀ c ∈ lead,c.toLower ≠ Char.toLower '>' := by
  intro c member same
  rw [lower_sign (by decide) same] at member
  exact clear member

theorem takeWhile_append_of_mem (rest : Line) (marked : c ∈ text) : (text ++ rest).takeWhile (fun d => d != c) = text.takeWhile (fun d => d != c) ∧
    (text ++ rest).dropWhile (fun d => d != c) = text.dropWhile (fun d => d != c) ++ rest := by
  induction text with
  | nil => cases marked
  | cons d text ih =>
    by_cases same : d = c
    · subst same
      simp
    · have later : c ∈ text := by
        rcases mem_cons.mp marked with rfl | later
        · exact absurd rfl same
        · exact later
      obtain ⟨take,drop⟩ := ih later
      simp [same,take,drop]

theorem dropWhile_of_mem (marked : c ∈ text) : ∃ rest,text.dropWhile (fun d => d != c) = c :: rest := by
  induction text with
  | nil => cases marked
  | cons d text ih =>
    by_cases same : d = c
    · subst same
      exact ⟨text,by simp⟩
    · rcases mem_cons.mp marked with rfl | later
      · exact absurd rfl same
      · obtain ⟨rest,dropped⟩ := ih later
        exact ⟨rest,by simp [same,dropped]⟩

theorem groupAt_append (rest : Line) (marked : '>' ∈ text) : groupAt (text ++ rest) = (groupAt text).map (fun tag => (tag.1,tag.2 ++ rest)) := by
  obtain ⟨take,drop⟩ := takeWhile_append_of_mem rest marked
  obtain ⟨more,dropped⟩ := dropWhile_of_mem marked
  have head : (text ++ rest).head? = text.head? := by
    cases text with
    | nil => cases marked
    | cons c text => rfl
  unfold groupAt
  rw [head,take,drop,dropped]
  split
  · rfl
  · rfl

theorem tagAt_append (rest : Line) (clear : '>' ∉ name) (marked : '>' ∈ text) :
    tagAt name (text ++ rest) = (tagAt name text).map (fun tag => (tag.1,tag.2 ++ rest)) := by
  have clear' : ∀ c ∈ '<' :: name,c.toLower ≠ Char.toLower '>' := clear_lower (by simp [clear])
  unfold tagAt
  rw [leads_append clear' marked]
  split
  · rename_i starts
    have inside := mem_drop_of_leads clear' starts marked
    have within : name.length + 1 ≤ text.length := leads_length starts
    rw [drop_append_of_le_length within]
    exact groupAt_append rest inside
  · rfl

theorem tagAt_start (found : tagAt name (c :: rest) = some (attrs,after)) : c = '<' := by
  unfold tagAt at found
  split at found
  · rename_i starts
    simp only [leads,map_cons,isPrefixOf_cons_cons,Bool.and_eq_true,beq_iff_eq] at starts
    exact lower_sign (by decide) starts.1.symm
  · cases found

theorem groupAt_length (found : groupAt text = some (attrs,after)) : text.length = attrs.length + 1 + after.length := by
  unfold groupAt at found
  split at found
  · split at found
    · cases found
    · rename_i dropped
      cases found
      have parts := congrArg List.length (takeWhile_append_dropWhile (p := fun c => c != '>') (l := text))
      rw [dropped,length_append,length_cons] at parts
      omega
  · cases found

theorem tagAt_length (found : tagAt name text = some (attrs,after)) : text.length = name.length + attrs.length + 2 + after.length := by
  unfold tagAt at found
  split at found
  · rename_i starts
    have within : name.length + 1 ≤ text.length := leads_length starts
    have length := groupAt_length found
    rw [length_drop] at length
    omega
  · cases found

theorem tags_skip (name u rest : Line) : tags name u.length (u ++ rest) = tags name 0 rest := by
  induction u with
  | nil => rfl
  | cons c u ih => exact ih

theorem tags_append (clear : '>' ∉ name) (closed : Closed text) (short : skip ≤ text.length) :
    tags name skip (text ++ rest) = tags name skip text ++ tags name 0 rest := by
  induction text generalizing skip with
  | nil =>
    obtain rfl : skip = 0 := Nat.le_zero.mp short
    rfl
  | cons c text ih =>
    cases skip with
    | succ skip => exact ih closed.tail (Nat.le_of_succ_le_succ short)
    | zero =>
      rw [cons_append,tags,tags]
      cases found : tagAt name (c :: text) with
      | some tag =>
        obtain ⟨attrs,after⟩ := tag
        obtain rfl := tagAt_start found
        have marked : '>' ∈ '<' :: text := mem_cons_of_mem _ closed.head
        have more := tagAt_append rest clear marked
        rw [cons_append] at more
        rw [more,found]
        have length := tagAt_length found
        have short : name.length + attrs.length + 1 ≤ text.length := by
          rw [length_cons] at length
          omega
        exact congrArg (attrs :: ·) (ih closed.tail short)
      | none =>
        have none_ : tagAt name (c :: (text ++ rest)) = none := by
          by_cases start_ : c = '<'
          · subst start_
            have marked : '>' ∈ '<' :: text := mem_cons_of_mem _ closed.head
            have more := tagAt_append rest clear marked
            rw [cons_append] at more
            rw [more,found]
            rfl
          · cases other : tagAt name (c :: (text ++ rest)) with
            | none => rfl
            | some tag => exact absurd (tagAt_start other) start_
        rw [none_]
        exact ih closed.tail (Nat.zero_le _)

theorem leads_self : leads fold lead (lead ++ rest) = true := by
  rw [leads,map_append]
  exact isPrefixOf_iff_prefix.mpr (prefix_append _ _)

theorem tagAt_tagText (name rest : Line) (bounded : attrs.head?.all (fun c => !isWord c) = true) (clear : '>' ∉ attrs) :
    tagAt name (tagText name attrs ++ rest) = some (attrs,rest) := by
  have whole : tagText name attrs ++ rest = ('<' :: name) ++ (attrs ++ '>' :: rest) := by simp [tagText]
  have inside : (('<' :: name) ++ (attrs ++ '>' :: rest)).drop (name.length + 1) = attrs ++ '>' :: rest :=
    drop_left' rfl
  have all : ∀ c ∈ attrs,(c != '>') = true := by
    intro c member
    refine bne_iff_ne.mpr ?_
    rintro rfl
    exact clear member
  have head : (attrs ++ '>' :: rest).head?.all (fun c => !isWord c) = true := by
    cases attrs with
    | nil => rfl
    | cons c attrs => exact bounded
  rw [whole,tagAt,inside,leads_self,if_pos rfl,groupAt,head,if_pos rfl,dropWhile_append_of_pos all,takeWhile_append_of_pos all]
  simp

theorem tags_tagText (bounded : attrs.head?.all (fun c => !isWord c) = true) (clear : '>' ∉ attrs) :
    tags name 0 (tagText name attrs ++ rest) = attrs :: tags name 0 rest := by
  have found := tagAt_tagText name rest bounded clear
  have whole : tagText name attrs ++ rest = '<' :: ((name ++ attrs ++ ['>']) ++ rest) := by simp [tagText]
  rw [whole] at found ⊢
  rw [tags,found]
  have length : (name ++ attrs ++ ['>']).length = name.length + attrs.length + 1 := by simp [Nat.add_assoc]
  have skipped := tags_skip name (name ++ attrs ++ ['>']) rest
  rw [length] at skipped
  exact congrArg (attrs :: ·) skipped

theorem cut_parts (found : cut fold lead text = some (before,after)) : ∃ here,text = before ++ here ++ after ∧ here.length = lead.length ∧
    leads fold lead (here ++ after) = true := by
  induction text generalizing before with
  | nil => cases found
  | cons c text ih =>
    rw [cut] at found
    split at found
    · rename_i starts
      cases found
      have within := leads_length starts
      refine ⟨(c :: text).take lead.length,by simp,(length_take).trans (Nat.min_eq_left within),?_⟩
      rw [take_append_drop]
      exact starts
    · obtain ⟨parts,more,same⟩ := map_eq_some_iff.mp found
      cases same
      obtain ⟨here,whole,length,starts⟩ := ih more
      exact ⟨here,by rw [whole]; rfl,length,starts⟩

theorem leads_id : leads id lead text = true ↔ lead <+: text := by simp [leads]

theorem cut_id (found : cut id lead text = some (before,after)) : text = before ++ lead ++ after := by
  obtain ⟨here,whole,length,starts⟩ := cut_parts found
  obtain ⟨more,same⟩ := leads_id.mp starts
  rw [whole,(append_inj same.symm length).1]

theorem cut_here (more : lead ≠ []) : cut id lead (lead ++ rest) = some ([],rest) := by
  cases lead with
  | nil => exact absurd rfl more
  | cons c lead =>
    have starts : leads id (c :: lead) (c :: (lead ++ rest)) = true := leads_id.mpr ⟨rest,rfl⟩
    rw [cons_append,cut,if_pos starts]
    have dropped : (c :: (lead ++ rest)).drop (c :: lead).length = rest := drop_left' rfl
    rw [dropped]

theorem cut_pass (absent : c ∉ u) : cut id (c :: lead) (u ++ rest) = (cut id (c :: lead) rest).map (fun parts => (u ++ parts.1,parts.2)) := by
  induction u with
  | nil => simp
  | cons d u ih =>
    have other : ¬leads id (c :: lead) (d :: (u ++ rest)) = true := by
      rw [leads_id]
      rintro ⟨_,same⟩
      rw [(List.cons.inj same).1] at absent
      exact absent mem_cons_self
    rw [cons_append,cut,if_neg other,ih (fun member => absent (mem_cons_of_mem _ member)),Option.map_map]
    rfl

theorem cut_insert (once : c ∉ lead) (found : cut id (c :: lead) text = some (before,after)) :
    cut id (c :: lead) (before ++ c :: rest) = (cut id (c :: lead) (c :: rest)).map (fun parts => (before ++ parts.1,parts.2)) := by
  have whole := cut_id found
  subst whole
  induction before with
  | nil => simp
  | cons d before ih =>
    rw [cons_append,cons_append,cut] at found
    split at found
    · cases found
    · rename_i other
      obtain ⟨⟨front,back⟩,more,same⟩ := map_eq_some_iff.mp found
      cases same
      have still : ¬leads id (c :: lead) (d :: (front ++ c :: rest)) = true := by
        rw [leads_id] at other ⊢
        rintro ⟨tail,same⟩
        have same : (c :: lead) ++ tail = (d :: front) ++ (c :: rest) := same
        rcases append_eq_append_iff.mp same with ⟨a,left,right⟩ | ⟨a,left,right⟩
        · refine other ⟨a ++ (c :: lead) ++ back,?_⟩
          rw [← cons_append,← cons_append,left]
          simp
        · cases a with
          | nil =>
            refine other ⟨(c :: lead) ++ back,?_⟩
            rw [left]
            simp
          | cons e a =>
            rw [cons_append] at right left
            cases right
            refine once ?_
            cases left
            simp
      rw [cons_append,cut,if_neg still,ih more,Option.map_map]
      rfl

theorem contains_iff (more : lead ≠ []) : contains id lead text = true ↔ lead <:+: text := by
  induction text with
  | nil =>
    constructor
    · intro found
      cases found
    · intro inside
      exact absurd (infix_nil.mp inside) more
  | cons c text ih =>
    rw [contains,cut,infix_cons_iff,← leads_id]
    split
    · rename_i starts
      simp [starts]
    · rename_i other
      rw [isSome_map,← contains,ih]
      simp [other]

theorem infix_beside (clear : c ∉ lead) (inside : lead <:+: u ++ c :: v) : lead <:+: u ∨ lead <:+: v := by
  obtain ⟨front,back,whole⟩ := inside
  rw [append_assoc] at whole
  rcases append_eq_append_iff.mp whole with ⟨a,left,right⟩ | ⟨a,left,right⟩
  · rcases append_eq_append_iff.mp right with ⟨b,within,_⟩ | ⟨b,within,rest_⟩
    · exact .inl ⟨front,b,by rw [left,within,append_assoc]⟩
    · cases b with
      | nil => exact .inl ⟨front,[],by rw [left,within]; simp⟩
      | cons d b =>
        cases rest_
        refine absurd ?_ clear
        rw [within]
        simp
  · cases a with
    | nil =>
      cases lead with
      | nil => exact .inl ⟨[],u,rfl⟩
      | cons d lead =>
        cases right
        exact absurd mem_cons_self clear
    | cons d a =>
      cases right
      exact .inr ⟨a,back,by rw [append_assoc]; rfl⟩

theorem attributeOf_quoted (found : attributeOf name attrs = some text) : '"' ∉ text := by
  obtain ⟨parts,_,value⟩ := bind_eq_some_iff.mp found
  split at value
  · cases value
    intro member
    have other := mem_takeWhile_imp member
    simp at other
  · cases value

theorem verbatim_append (clear : sign ∉ ['$','&','`','\'']) :
    verbatim (text ++ sign :: rest) = (verbatim text && verbatim (sign :: rest)) := by
  induction text with
  | nil => rfl
  | cons c text ih =>
    have head : (text ++ sign :: rest).head?.any (fun d => decide (d ∈ ['$','&','`','\''])) =
        text.head?.any (fun d => decide (d ∈ ['$','&','`','\''])) := by
      cases text with
      | nil => exact decide_eq_false clear
      | cons d text => rfl
    rw [cons_append,verbatim,ih,head]
    exact (Bool.and_assoc _ _ _).symm

theorem cut_tag (named : '<' ∉ name) (closing : name.head?.all (fun c => c != '/') = true) (filled : name ≠ []) (clear : '<' ∉ attrs) :
    cut id ('<' :: '/' :: lead) (tagText name attrs ++ rest) =
      (cut id ('<' :: '/' :: lead) rest).map (fun parts => (tagText name attrs ++ parts.1,parts.2)) := by
  have whole : tagText name attrs ++ rest = '<' :: ((name ++ attrs ++ ['>']) ++ rest) := by simp [tagText]
  have other : ¬leads id ('<' :: '/' :: lead) ('<' :: ((name ++ attrs ++ ['>']) ++ rest)) = true := by
    rw [leads_id]
    rintro ⟨_,same⟩
    cases name with
    | nil => exact filled rfl
    | cons c name =>
      obtain rfl : '/' = c := (List.cons.inj (List.cons.inj same).2).1
      cases closing
  have absent : '<' ∉ name ++ attrs ++ ['>'] := by simp [named,clear]
  rw [whole,cut,if_neg other,cut_pass absent,Option.map_map]
  simp [tagText,comp_def]

def tagTexts (name : Line) (groups : List Line) : Line := (groups.map (tagText name)).flatten

theorem tagTexts_cons (name attrs : Line) (groups : List Line) : tagTexts name (attrs :: groups) = tagText name attrs ++ tagTexts name groups := rfl

theorem tagTexts_concat (name attrs : Line) (groups : List Line) : tagTexts name (groups ++ [attrs]) = tagTexts name groups ++ tagText name attrs := by
  simp [tagTexts]

theorem cut_tagTexts (named : '<' ∉ name) (closing : name.head?.all (fun c => c != '/') = true) (filled : name ≠ [])
    (clear : ∀ attrs ∈ groups,'<' ∉ attrs) : cut id ('<' :: '/' :: lead) (tagTexts name groups ++ rest) =
      (cut id ('<' :: '/' :: lead) rest).map (fun parts => (tagTexts name groups ++ parts.1,parts.2)) := by
  induction groups with
  | nil => simp [tagTexts]
  | cons attrs groups ih =>
    rw [tagTexts_cons,append_assoc,cut_tag named closing filled (clear attrs mem_cons_self),
      ih (fun other member => clear other (mem_cons_of_mem _ member)),Option.map_map]
    simp [comp_def]

theorem tags_tagTexts (bounded : ∀ attrs ∈ groups,attrs.head?.all (fun c => !isWord c) = true)
    (clear : ∀ attrs ∈ groups,'>' ∉ attrs) : tags name 0 (tagTexts name groups ++ rest) = groups ++ tags name 0 rest := by
  induction groups with
  | nil => rfl
  | cons attrs groups ih =>
    rw [tagTexts_cons,append_assoc,tags_tagText (bounded attrs mem_cons_self) (clear attrs mem_cons_self),
      ih (fun other member => bounded other (mem_cons_of_mem _ member)) (fun other member => clear other (mem_cons_of_mem _ member))]
    rfl

theorem infix_tagTexts (opened : '<' ∉ lead) (closed : '>' ∉ lead) (inside : lead <:+: before ++ (tagTexts name groups ++ after)) :
    (∃ attrs ∈ groups,lead <:+: tagText name attrs) ∨ lead <:+: before ++ after := by
  induction groups with
  | nil => exact .inr inside
  | cons attrs groups ih =>
    have whole : before ++ (tagTexts name (attrs :: groups) ++ after) = before ++ '<' :: (name ++ attrs ++ '>' :: (tagTexts name groups ++ after)) := by
      simp [tagTexts_cons,tagText]
    rw [whole] at inside
    have later : lead <:+: before ++ (tagTexts name groups ++ after) →
        (∃ group ∈ attrs :: groups,lead <:+: tagText name group) ∨ lead <:+: before ++ after := by
      intro there
      rcases ih there with ⟨group,member,found⟩ | found
      · exact .inl ⟨group,mem_cons_of_mem _ member,found⟩
      · exact .inr found
    rcases infix_beside opened inside with front | behind
    · exact later (front.trans (prefix_append _ _).isInfix)
    · rcases infix_beside closed behind with within | behind
      · refine .inl ⟨attrs,mem_cons_self,within.trans ⟨['<'],['>'],?_⟩⟩
        simp [tagText]
      · exact later (behind.trans (suffix_append _ _).isInfix)

theorem verbatim_clear (clear : '$' ∉ text) : verbatim text = true := by
  induction text with
  | nil => rfl
  | cons c text ih =>
    have other : c ≠ '$' := fun same => clear (same ▸ mem_cons_self)
    have rest_ := ih (fun member => clear (mem_cons_of_mem _ member))
    simp [verbatim,other,rest_]

theorem replaceFirst_cut {needle replacement : Line} (found : cut fold needle text = some (before,after)) (plain : verbatim replacement = true) :
    replaceFirst fold needle replacement text = before ++ replacement ++ after := by
  rw [replaceFirst,found]
  simp only [substitute_verbatim plain]

theorem openingAt_parts (found : openingAt name text = some (before,after)) : text = before ++ after := by
  induction text generalizing before with
  | nil => cases found
  | cons c text ih =>
    rw [openingAt] at found
    split at found
    · cases found
      rfl
    · obtain ⟨parts,more,same⟩ := map_eq_some_iff.mp found
      cases same
      exact congrArg (c :: ·) (ih more)

theorem closed_of_last (last : text.getLast? = some '>') : Closed text := by
  intro u v same
  rw [same,getLast?_append] at last
  cases v with
  | nil => cases last
  | cons c v =>
    have ends : (c :: v).getLast? = some '>' := by simpa [getLast?_cons] using last
    exact mem_of_getLast? ends

theorem sign_inj (left : c ∉ u) (right : c ∉ v) (same : u ++ c :: before = v ++ c :: after) : u = v ∧ before = after := by
  have first : u = v := by
    have taken := congrArg (List.takeWhile (fun d => d != c)) same
    have clear : ∀ {w : Line},c ∉ w → ∀ d ∈ w,(d != c) = true := fun absent d member =>
      bne_iff_ne.mpr (fun same => absent (same ▸ member))
    rw [takeWhile_append_of_pos (clear left),takeWhile_append_of_pos (clear right)] at taken
    simpa using taken
  subst first
  exact ⟨rfl,(List.cons.inj (append_cancel_left same)).2⟩

end lemmas
end Markup
