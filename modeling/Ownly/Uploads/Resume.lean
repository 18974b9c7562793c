import Ownly.Uploads.Accounting

-- Requests on one session, one after the other: what the list of received parts
-- tells a client that resumes.
namespace Ownly.Uploads.Parts
open Finset
open Option KeyMap
def Phase.answered : Phase → Bool
  | .done _ => true
  | _ => false

-- A request begins when the one before it has been answered.
def Sequential (sys : System) : Event → Prop
  | .begin _ _ _ _ => ∀ task ∈ sys.tasks, task.phase.answered = true
  | _ => True

instance (sys : System) : ∀ e, Decidable (Sequential sys e)
  | .begin _ _ _ _ => inferInstanceAs (Decidable (∀ task ∈ sys.tasks, task.phase.answered = true))
  | .advance _ _ => .isTrue trivial
  | .verify _ _ _ => .isTrue trivial
  | .drop _ => .isTrue trivial

def Phase.part : Phase → Option Int
  | .signing part _ => some part
  | .placing part _ => some part
  | .matching part _ _ => some part
  | .verifying part _ _ => some part
  | .consuming part _ _ _ => some part
  | .rescuing part => some part
  | .reloading part => some part
  | .selecting part _ _ => some part
  | .upgrading part _ _ => some part
  | .stamping part _ => some part
  | .reading part => some part
  | .inserting part _ _ => some part
  | .crediting part _ => some part
  | .committing part _ => some part
  | .listing => none
  | .done _ => none

def reply : Option Int → Phase → List (Int × Outcome)
  | some part,.done outcome => [(part,outcome)]
  | _,_ => []

def answer (sys : System) (e : Event) (next : System) : List (Int × Outcome) :=
  match e with
  | .advance i _ =>
    match sys.tasks[i]?,next.tasks[i]? with
    | some before,some after => reply before.phase.part after.phase
    | _,_ => []
  | _ => []

def answers (sys : System) (events : List Event) : List (Int × Outcome) := Schedule.outputs step answer sys events

-- Every part that a signed URL was handed out for has been recorded since, or before.
def Confirmed (answered : List (Int × Outcome)) : Prop :=
  ∀ p, (p,.minted) ∈ answered → ∃ bytes, (p,.recorded bytes) ∈ answered

-- The size of a part as `list_received_parts` and its callers could read it.
def shown (parts : KeyMap Int PartVersion) (p : Int) : Option Int := (cell parts p).committed.map PartRow.sizeBytes

def Whole (total chunk p : Int) (size : Option Int) : Prop :=
  ∃ expected, expectedPartSize total chunk p = .ok expected ∧ 0 < expected ∧ size = some expected

structure Reported (total chunk : Int) (answered : List (Int × Outcome)) (parts : KeyMap Int PartVersion) : Prop where
  recorded : ∀ p bytes, (p,.recorded bytes) ∈ answered → Whole total chunk p (shown parts p)
  listed : ∀ p ∈ listReceivedParts parts, Whole total chunk p (shown parts p)

variable {parts parts' : KeyMap Int PartVersion} {p q size total chunk : Int} {row next : PartVersion} {i j : Nat}
  {session session' : RowVersion Nat SessionRow} {phase : Phase} {sys sys' : System} {task : Task}
  {answered news : List (Int × Outcome)}

theorem mem_listReceivedParts : p ∈ listReceivedParts parts ↔ ∃ size, shown parts p = some size := by
  rw [listReceivedParts,List.mem_insertionSort,List.mem_map]
  constructor
  · rintro ⟨⟨part,row⟩,member,rfl⟩
    obtain ⟨entry,visible⟩ := List.mem_filter.mp member
    obtain ⟨r,stored⟩ := isSome_iff_exists.mp visible
    refine ⟨r.sizeBytes,?_⟩
    rw [shown,cell_get (get_eq_some.mpr entry)]
    exact congrArg (Option.map PartRow.sizeBytes) stored
  · intro ⟨size,visible⟩
    obtain ⟨r,stored,_⟩ := map_eq_some_iff.mp visible
    cases found : parts.get p with
    | none =>
      rw [cell,found] at stored
      cases stored
    | some row =>
      rw [cell_get found] at stored
      exact ⟨⟨p,row⟩,List.mem_filter.mpr ⟨get_eq_some.mp found,by simp only [stored,isSome_some]⟩,rfl⟩

theorem shown_set : shown (parts.set p next) q = if q = p then next.committed.map PartRow.sizeBytes else shown parts q := by
  rw [shown,cell_set]
  split
  · rfl
  · rfl

theorem shown_set_same (same : next.committed.map PartRow.sizeBytes = shown parts p) :
    shown (parts.set p next) = shown parts := by
  funext q
  rw [shown_set]
  split
  · rename_i here
    rw [here,same]
  · rfl

theorem shown_rollback : shown (parts.mapValues (RowVersion.rollback i)) = shown parts := by
  funext q
  rw [shown,cell_rollback,RowVersion.rollback_committed,shown]

structure Register (total chunk : Int) (answered : List (Int × Outcome)) (sizes : Int → Option Int) : Prop where
  recorded : ∀ p bytes, (p,.recorded bytes) ∈ answered → Whole total chunk p (sizes p)
  minted : ∀ p, (p,.minted) ∈ answered → ∃ size, sizes p = some size
  rows : ∀ p size, sizes p = some size → (size = 0 ∧ (p,.minted) ∈ answered) ∨ ∃ bytes, (p,.recorded bytes) ∈ answered

theorem Register.reported (register : Register total chunk answered (shown parts)) :
    Reported total chunk answered parts ↔ Confirmed answered := by
  constructor
  · intro ⟨_,listed⟩ p minted
    obtain ⟨size,visible⟩ := register.minted p minted
    obtain ⟨expected,_,positive,same⟩ := listed p (mem_listReceivedParts.mpr ⟨size,visible⟩)
    rw [visible] at same
    cases same
    rcases register.rows p size visible with ⟨zero,_⟩ | recorded
    · omega
    · exact recorded
  · intro confirmed
    refine ⟨register.recorded,?_⟩
    intro p member
    obtain ⟨size,visible⟩ := mem_listReceivedParts.mp member
    rcases register.rows p size visible with ⟨_,minted⟩ | ⟨bytes,recorded⟩
    · obtain ⟨bytes,recorded⟩ := confirmed p minted
      exact register.recorded p bytes recorded
    · exact register.recorded p bytes recorded

section
variable (register : Register total chunk answered sizes)
include register

theorem Register.silent
    (silent : ∀ p outcome, (p,outcome) ∈ news → outcome ≠ .minted ∧ ∀ bytes, outcome ≠ .recorded bytes) :
    Register total chunk (answered ++ news) sizes := by
  refine ⟨?_,?_,?_⟩
  · intro p bytes member
    rcases List.mem_append.mp member with old | new
    · exact register.recorded p bytes old
    · exact absurd rfl ((silent p _ new).2 bytes)
  · intro p member
    rcases List.mem_append.mp member with old | new
    · exact register.minted p old
    · exact absurd rfl (silent p _ new).1
  · intro p size visible
    rcases register.rows p size visible with ⟨zero,minted⟩ | ⟨bytes,recorded⟩
    · exact .inl ⟨zero,List.mem_append_left news minted⟩
    · exact .inr ⟨bytes,List.mem_append_left news recorded⟩

theorem Register.mint (others : ∀ q, q ≠ p → sizes' q = sizes q)
    (placed : sizes' p = some ((sizes p).getD 0)) : Register total chunk (answered ++ [(p,.minted)]) sizes' := by
  have kept : ∀ q size, sizes q = some size → sizes' q = some size := by
    intro q size visible
    by_cases same : q = p
    · rw [same] at visible ⊢
      rw [placed,visible,getD_some]
    · rw [others q same,visible]
  refine ⟨?_,?_,?_⟩
  · intro q bytes member
    rcases List.mem_append.mp member with old | new
    · obtain ⟨expected,equal,positive,visible⟩ := register.recorded q bytes old
      exact ⟨expected,equal,positive,kept q expected visible⟩
    · cases List.mem_singleton.mp new
  · intro q member
    rcases List.mem_append.mp member with old | new
    · obtain ⟨size,visible⟩ := register.minted q old
      exact ⟨size,kept q size visible⟩
    · cases List.mem_singleton.mp new
      exact ⟨_,placed⟩
  · intro q size visible
    cases before : sizes q with
    | none =>
      by_cases same : q = p
      · subst q
        rw [placed,before] at visible
        cases visible
        exact .inl ⟨rfl,List.mem_append_right answered (List.mem_singleton.mpr rfl)⟩
      · rw [others q same,before] at visible
        cases visible
    | some old =>
      have same := (kept q old before).symm.trans visible
      cases same
      rcases register.rows q size before with ⟨zero,minted⟩ | ⟨bytes,recorded⟩
      · exact .inl ⟨zero,List.mem_append_left _ minted⟩
      · exact .inr ⟨bytes,List.mem_append_left _ recorded⟩

theorem Register.record (others : ∀ q, q ≠ p → sizes' q = sizes q)
    (whole : Whole total chunk p (sizes' p)) (bytes : Int) :
    Register total chunk (answered ++ [(p,.recorded bytes)]) sizes' := by
  have here : (p,Outcome.recorded bytes) ∈ answered ++ [(p,.recorded bytes)] :=
    List.mem_append_right answered (List.mem_singleton.mpr rfl)
  refine ⟨?_,?_,?_⟩
  · intro q again member
    by_cases same : q = p
    · rw [same]; exact whole
    · rcases List.mem_append.mp member with old | new
      · rw [others q same]; exact register.recorded q again old
      · cases List.mem_singleton.mp new
        exact absurd rfl same
  · intro q member
    by_cases same : q = p
    · obtain ⟨expected,_,_,visible⟩ := whole
      rw [same]; exact ⟨expected,visible⟩
    · rcases List.mem_append.mp member with old | new
      · rw [others q same]; exact register.minted q old
      · cases List.mem_singleton.mp new
  · intro q size visible
    by_cases same : q = p
    · rw [same]; exact .inr ⟨bytes,here⟩
    · rw [others q same] at visible
      rcases register.rows q size visible with ⟨zero,minted⟩ | ⟨again,recorded⟩
      · exact .inl ⟨zero,List.mem_append_left _ minted⟩
      · exact .inr ⟨again,List.mem_append_left _ recorded⟩

end

-- Neither a minted URL nor a recorded part.
def Phase.quiet : Phase → Bool
  | .done .minted => false
  | .done (.recorded _) => false
  | _ => true

theorem Register.quiet (register : Register total chunk answered sizes) (quiet : phase.quiet = true) (part : Option Int) :
    Register total chunk (answered ++ reply part phase) sizes := by
  refine register.silent ?_
  intro p outcome member
  unfold reply at member
  split at member
  · cases List.mem_singleton.mp member
    constructor
    · intro same
      rw [same] at quiet
      cases quiet
    · intro bytes same
      rw [same] at quiet
      cases quiet
  · cases member

def Phase.Expects (total chunk : Int) (task : Nat) (parts : KeyMap Int PartVersion) : Phase → Prop
  | .verifying part token _ => (cell parts part).committed.bind PartRow.signedToken = some token
  | .consuming part token _ _ => (cell parts part).committed.bind PartRow.signedToken = some token
  | .rescuing _ => False
  | .reloading _ => False
  | .upgrading part _ _ => shown parts part = some 0
  | .stamping part _ => Whole total chunk part (shown parts part)
  | .reading part => Whole total chunk part (((cell parts part).commit task).committed.map PartRow.sizeBytes)
  | .crediting part _ => Whole total chunk part (((cell parts part).commit task).committed.map PartRow.sizeBytes)
  | .committing part _ => Whole total chunk part (((cell parts part).commit task).committed.map PartRow.sizeBytes)
  | _ => True

theorem expects_answered (done : phase.answered = true) : phase.Expects total chunk i parts := by
  cases phase with
  | done outcome => trivial
  | _ => cases done

theorem recordPlan_upgrade (plan : recordPlan stored size sha = .upgrade) : stored.map PartRow.sizeBytes = some 0 := by
  unfold recordPlan at plan
  split at plan
  · cases plan
  · split at plan
    · rename_i empty
      exact congrArg some empty.1
    · split at plan
      · split at plan
        · cases plan
        · cases plan
      · cases plan

theorem recordPlan_same (plan : recordPlan stored size sha = .stamp ∨ recordPlan stored size sha = .keep) :
    stored.map PartRow.sizeBytes = some size := by
  unfold recordPlan at plan
  split at plan
  · rcases plan with plan | plan
    · cases plan
    · cases plan
  · split at plan
    · rcases plan with plan | plan
      · cases plan
      · cases plan
    · split at plan
      · rename_i same
        exact congrArg some same.1
      · rcases plan with plan | plan
        · cases plan
        · cases plan

theorem commit_write {f : Option PartRow → Option PartRow} (idle : (cell parts p).Idle i)
    (wrote : (cell parts p).write i f = some next) : (next.commit i).committed = f (cell parts p).committed := by
  obtain ⟨_,rfl⟩ := RowVersion.write_first idle wrote
  exact congrArg RowVersion.committed (RowVersion.commit_held rfl)

structure Alone (total chunk : Int) (i : Nat) (answered : List (Int × Outcome)) (before after : Phase)
    (parts : KeyMap Int PartVersion) : Prop where
  expects : after.Expects total chunk i parts
  register : Register total chunk (answered ++ reply before.part after) (shown parts)

theorem writeThrough_shown {f : PartRow → PartRow} (kept : ∀ r, (f r).sizeBytes = r.sizeBytes)
    (wrote : (cell parts p).writeThrough (Option.map f) = some next) : shown (parts.set p next) = shown parts := by
  obtain ⟨_,rfl⟩ := RowVersion.writeThrough_exact.mp wrote
  refine shown_set_same ?_
  rw [Option.map_map]
  exact congrArg (Option.map · (cell parts p).committed) (funext kept)

theorem write_shown (idle : (cell parts p).Idle i) (wrote : (cell parts p).write i f = some next) :
    shown (parts.set p next) = shown parts := by
  obtain ⟨_,rfl⟩ := RowVersion.write_first idle wrote
  exact shown_set_same rfl

section
variable (register : Register total chunk answered (shown parts))
include register

theorem signing_alone (ran : advance i now copy session parts (.signing p token) = some (phase,session',parts')) :
    Alone total chunk i answered (.signing p token) phase parts' := by
  dsimp only [advance] at ran
  cases stored : (cell parts p).committed with
  | none =>
    rw [stored] at ran
    cases ran
    exact ⟨trivial,register.quiet rfl (some p)⟩
  | some r =>
    rw [stored] at ran
    dsimp only at ran
    obtain ⟨row,wrote,same⟩ := map_eq_some_iff.mp ran
    cases same
    have visible : shown parts p = some r.sizeBytes := by rw [shown,stored]; rfl
    rw [← writeThrough_shown (signed_size token) wrote] at register visible
    exact ⟨trivial,register.mint (fun _ _ => rfl) (by rw [visible,getD_some])⟩

theorem placing_alone (ran : advance i now copy session parts (.placing p token) = some (phase,session',parts')) :
    Alone total chunk i answered (.placing p token) phase parts' := by
  dsimp only [advance] at ran
  obtain ⟨row,wrote,same⟩ := map_eq_some_iff.mp ran
  cases same
  refine ⟨trivial,register.mint ?_ ?_⟩
  · intro q ne
    rw [shown_set,if_neg ne]
  · obtain ⟨_,rfl⟩ := RowVersion.writeThrough_exact.mp wrote
    rw [shown_set,if_pos rfl,shown]
    cases (cell parts p).committed with
    | none => rfl
    | some r => rfl

theorem matching_alone (ran : advance i now copy session parts (.matching p token sha) = some (phase,session',parts')) :
    Alone total chunk i answered (.matching p token sha) phase parts' := by
  dsimp only [advance] at ran
  split at ran
  · rename_i held
    cases ran
    exact ⟨held,register.quiet rfl (some p)⟩
  · cases ran
    exact ⟨trivial,register.quiet rfl (some p)⟩

theorem consuming_alone (held : (cell parts p).committed.bind PartRow.signedToken = some token)
    (ran : advance i now copy session parts (.consuming p token size sha) = some (phase,session',parts')) :
    Alone total chunk i answered (.consuming p token size sha) phase parts' := by
  dsimp only [advance] at ran
  rw [if_pos held] at ran
  obtain ⟨row,wrote,same⟩ := map_eq_some_iff.mp ran
  cases same
  rw [← writeThrough_shown (consumed_size token) wrote] at register
  exact ⟨trivial,register.quiet rfl (some p)⟩

section
variable (idle : (cell parts p).Idle i)
include idle

theorem selecting_alone
    (expected : expectedPartSize total chunk p = .ok size) (positive : 0 < size)
    (ran : advance i now copy session parts (.selecting p size sha) = some (phase,session',parts')) :
    Alone total chunk i answered (.selecting p size sha) phase parts' := by
  dsimp only [advance] at ran
  cases plan : recordPlan (cell parts p).committed size sha with
  | upgrade =>
    rw [plan] at ran
    cases ran
    exact ⟨recordPlan_upgrade plan,register.quiet rfl (some p)⟩
  | stamp =>
    rw [plan] at ran
    cases ran
    exact ⟨⟨size,expected,positive,recordPlan_same (.inl plan)⟩,register.quiet rfl (some p)⟩
  | keep =>
    rw [plan] at ran
    cases ran
    refine ⟨⟨size,expected,positive,?_⟩,register.quiet rfl (some p)⟩
    rw [RowVersion.commit_of_idle idle]
    exact recordPlan_same (.inr plan)
  | conflict =>
    rw [plan] at ran
    cases ran
    exact ⟨trivial,register.quiet rfl (some p)⟩
  | insert =>
    rw [plan] at ran
    cases ran
    exact ⟨trivial,register.quiet rfl (some p)⟩

theorem upgrading_alone
    (expected : expectedPartSize total chunk p = .ok size) (positive : 0 < size) (empty : shown parts p = some 0)
    (ran : advance i now copy session parts (.upgrading p size sha) = some (phase,session',parts')) :
    Alone total chunk i answered (.upgrading p size sha) phase parts' := by
  dsimp only [advance] at ran
  obtain ⟨row,wrote,same⟩ := map_eq_some_iff.mp ran
  cases same
  rw [← write_shown idle wrote] at register
  refine ⟨⟨size,expected,positive,?_⟩,register.quiet rfl (some p)⟩
  obtain ⟨r,stored,_⟩ := map_eq_some_iff.mp empty
  rw [cell_set_self,commit_write idle wrote,stored]
  rfl

theorem stamping_alone
    (whole : Whole total chunk p (shown parts p))
    (ran : advance i now copy session parts (.stamping p sha) = some (phase,session',parts')) :
    Alone total chunk i answered (.stamping p sha) phase parts' := by
  dsimp only [advance] at ran
  obtain ⟨row,wrote,same⟩ := map_eq_some_iff.mp ran
  cases same
  rw [← write_shown idle wrote] at register
  obtain ⟨size,expected,positive,visible⟩ := whole
  refine ⟨⟨size,expected,positive,?_⟩,register.quiet rfl (some p)⟩
  obtain ⟨r,stored,same⟩ := map_eq_some_iff.mp visible
  rw [cell_set_self,commit_write idle wrote,stored]
  exact congrArg some same

theorem inserting_alone
    (expected : expectedPartSize total chunk p = .ok size) (positive : 0 < size)
    (ran : advance i now copy session parts (.inserting p size sha) = some (phase,session',parts')) :
    Alone total chunk i answered (.inserting p size sha) phase parts' := by
  dsimp only [advance] at ran
  split at ran
  · cases ran
  · cases ran
    exact ⟨trivial,register.quiet rfl (some p)⟩
  · obtain ⟨row,wrote,same⟩ := map_eq_some_iff.mp ran
    cases same
    rw [← write_shown idle wrote] at register
    refine ⟨⟨size,expected,positive,?_⟩,register.quiet rfl (some p)⟩
    rw [cell_set_self,commit_write idle wrote]
    rfl

end

section
variable (whole : Whole total chunk p (((cell parts p).commit i).committed.map PartRow.sizeBytes))
include whole

theorem crediting_alone
    (ran : advance i now copy session parts (.crediting p size) = some (phase,session',parts')) :
    Alone total chunk i answered (.crediting p size) phase parts' := by
  dsimp only [advance] at ran
  obtain ⟨row,wrote,same⟩ := map_eq_some_iff.mp ran
  cases same
  exact ⟨whole,register.quiet rfl (some p)⟩

theorem committing_alone
    (ran : advance i now copy session parts (.committing p bytes) = some (phase,session',parts')) :
    Alone total chunk i answered (.committing p bytes) phase parts' := by
  cases ran
  refine ⟨trivial,register.record ?_ ?_ bytes⟩
  · intro q ne
    rw [shown_set,if_neg ne]
  · rw [shown_set,if_pos rfl]
    exact whole

end

end

theorem advance_alone (ledger : Ledger total chunk sys) (found : sys.tasks[i]? = some task)
    (expects : task.phase.Expects total chunk i sys.parts) (register : Register total chunk answered (shown sys.parts))
    (ran : advance i now task.copy sys.session sys.parts task.phase = some (phase,session',parts')) :
    Alone total chunk i answered task.phase phase parts' := by
  have proper := ledger.proper found
  have books := ledger.books found
  have idle : task.phase.holds = none → ∀ p, (cell sys.parts p).Idle i := fun free => (books.idle free).1
  obtain ⟨copy,was⟩ := task
  cases was with
  | signing p token => exact signing_alone register ran
  | placing p token => exact placing_alone register ran
  | matching p token sha => exact matching_alone register ran
  | verifying p token sha => cases ran
  | consuming p token size sha => exact consuming_alone register expects ran
  | rescuing p => cases expects
  | reloading p => cases expects
  | selecting p size sha => exact selecting_alone register (idle rfl p) proper (ledger.tables.positive proper) ran
  | upgrading p size sha => exact upgrading_alone register (idle rfl p) proper (ledger.tables.positive proper) expects ran
  | stamping p sha => exact stamping_alone register (idle rfl p) expects ran
  | reading p =>
    cases ran
    exact ⟨expects,register.quiet rfl (some p)⟩
  | inserting p size sha => exact inserting_alone register (idle rfl p) proper (ledger.tables.positive proper) ran
  | crediting p size => exact crediting_alone register expects ran
  | committing p bytes => exact committing_alone register expects ran
  | listing =>
    dsimp only [advance] at ran
    generalize partsComplete copy (listReceivedParts sys.parts).length = complete at ran
    cases ran
    cases complete with
    | error e => exact ⟨trivial,register.quiet rfl none⟩
    | ok _ => exact ⟨trivial,register.quiet rfl none⟩
  | done outcome => cases ran

-- One request at a time: the one under way meets the rows as it has left them.
structure Solo (total chunk : Int) (answered : List (Int × Outcome)) (sys : System) : Prop where
  ledger : Ledger total chunk sys
  alone : ∀ (i j : Nat) (task other : Task), sys.tasks[i]? = some task → sys.tasks[j]? = some other →
    task.phase.answered = false → other.phase.answered = false → i = j
  expects : ∀ (i : Nat) (task : Task), sys.tasks[i]? = some task → task.phase.Expects total chunk i sys.parts
  register : Register total chunk answered (shown sys.parts)

theorem Solo.moved (solo : Solo total chunk answered sys) (found : sys.tasks[i]? = some task)
    (running : task.phase.answered = false)
    (ledger : Ledger total chunk ⟨session',parts',sys.tasks.set i ⟨task.copy,phase⟩⟩)
    (expects : phase.Expects total chunk i parts') (register : Register total chunk news (shown parts')) :
    Solo total chunk news ⟨session',parts',sys.tasks.set i ⟨task.copy,phase⟩⟩ := by
  have others : ∀ (j : Nat) (other : Task), j ≠ i → sys.tasks[j]? = some other → other.phase.answered = true := by
    intro j other ne old
    cases open' : other.phase.answered with
    | true => rfl
    | false => exact absurd (solo.alone j i other task old found open' running) ne
  refine ⟨ledger,?_,?_,register⟩
  · intro j k one two here there first second
    rcases Slots.set_cases here with ⟨rfl,_⟩ | ⟨ne,old⟩
    · rcases Slots.set_cases there with ⟨rfl,_⟩ | ⟨ne,old⟩
      · rfl
      · rw [others k two ne old] at second
        cases second
    · rw [others j one ne old] at first
      cases first
  · intro j other present
    rcases Slots.set_cases present with ⟨rfl,rfl⟩ | ⟨ne,old⟩
    · exact expects
    · exact expects_answered (others j other ne old)

theorem advance_running (ran : advance i now copy session parts phase = some result) : phase.answered = false := by
  cases phase with
  | done outcome => cases ran
  | _ => rfl

theorem expects_placeholder (expects : phase.Expects total chunk i parts) : phase.OnPlaceholder parts := by
  cases phase with
  | upgrading p size sha => exact expects
  | _ => trivial

theorem begin_expects : (begin now userId refusal copy request).Expects total chunk i parts := by
  have begins := begin_begins now userId refusal copy request
  generalize begin now userId refusal copy request = phase at begins ⊢
  cases begins with
  | refused e => trivial
  | listing => trivial
  | signing part token sized => trivial
  | matching part token sha => trivial
  | selecting sha sized => trivial

theorem verify_expects (held : (cell parts p).committed.bind PartRow.signedToken = some token) :
    (verify copy stored digest p token sha).Expects total chunk i parts := by
  rcases verify_cases copy stored digest p token sha with ⟨e,refused⟩ | ⟨size,sha',consuming,_⟩
  · rw [refused]
    trivial
  · rw [consuming]
    exact held

theorem begin_solo (solo : Solo total chunk answered sys) (done : ∀ task ∈ sys.tasks, task.phase.answered = true) :
    Solo total chunk answered {sys with tasks := sys.tasks ++ [⟨sys.session.committed,
      begin now userId refusal sys.session.committed request⟩]} := by
  have old : ∀ (j : Nat) (other : Task), sys.tasks[j]? = some other → other.phase.answered = true :=
    fun _ _ found => done _ (List.mem_of_getElem? found)
  refine ⟨begin_ledger solo.ledger,?_,?_,solo.register⟩
  · intro j k one two here there first second
    rcases Slots.append_cases here with ⟨rfl,_⟩ | found
    · rcases Slots.append_cases there with ⟨rfl,_⟩ | found
      · rfl
      · rw [old k two found] at second
        cases second
    · rw [old j one found] at first
      cases first
  · intro j other present
    rcases Slots.append_cases present with ⟨rfl,rfl⟩ | found
    · exact begin_expects
    · exact expects_answered (old j other found)

theorem answer_advance (found : sys.tasks[i]? = some task) (present : sys'.tasks[i]? = some after) :
    answer sys (.advance i now) sys' = reply task.phase.part after.phase := by
  dsimp only [answer]
  rw [found,present]

theorem step_solo (answered : List (Int × Outcome)) (sys : System) (e : Event) (sys' : System)
    (solo : Solo total chunk answered sys) (sequential : Sequential sys e) (fired : step sys e = some sys') :
    Solo total chunk (answered ++ answer sys e sys') sys' := by
  cases e with
  | begin now userId request refusal =>
    have still : answered ++ answer sys (.begin now userId request refusal) sys' = answered := List.append_nil answered
    rw [still]
    cases fired
    exact begin_solo solo sequential
  | advance i now =>
    have placed : OnPlaceholder sys (.advance i now) := by
      intro task found
      exact expects_placeholder (solo.expects i task found)
    have ledger := step_ledger solo.ledger placed fired
    dsimp only [step] at fired
    cases found : sys.tasks[i]? with
    | none =>
      rw [found] at fired
      cases fired
    | some task =>
      rw [found] at fired
      dsimp only at fired
      cases ran : advance i now task.copy sys.session sys.parts task.phase with
      | none =>
        rw [ran] at fired
        cases fired
      | some result =>
        obtain ⟨phase,session',parts'⟩ := result
        rw [ran] at fired
        cases fired
        obtain ⟨expects,register⟩ := advance_alone solo.ledger found (solo.expects i task found) solo.register ran
        obtain ⟨inside,_⟩ := List.getElem?_eq_some_iff.mp found
        rw [answer_advance found (List.getElem?_set_self inside)]
        exact solo.moved found (advance_running ran) ledger expects register
  | verify i stored digest =>
    have ledger := step_ledger solo.ledger (show OnPlaceholder sys (.verify i stored digest) from trivial) fired
    have still : answered ++ answer sys (.verify i stored digest) sys' = answered := List.append_nil answered
    rw [still]
    dsimp only [step] at fired
    split at fired
    · rename_i copy part token sha found
      cases fired
      have held := solo.expects i _ found
      exact solo.moved found rfl ledger (verify_expects held) solo.register
    · cases fired
  | drop i =>
    have ledger := step_ledger solo.ledger (show OnPlaceholder sys (.drop i) from trivial) fired
    have still : answered ++ answer sys (.drop i) sys' = answered := List.append_nil answered
    rw [still]
    dsimp only [step] at fired
    split at fired
    · cases fired
    · cases fired
    · rename_i task running found
      cases fired
      have register := solo.register
      rw [← shown_rollback] at register
      refine solo.moved found ?_ ledger trivial register
      cases phase : task.phase with
      | done outcome => exact absurd (by rw [← phase]) (running task.copy outcome)
      | _ => rfl

theorem created_solo {session : SessionRow} (sized : session.Sized) (empty : session.bytesReceived = 0) :
    Solo session.totalSize session.chunkSize [] (created session) := by
  refine ⟨created_ledger sized empty,?_,?_,?_,?_,?_⟩
  · intro i j task other found
    cases found
  · intro i task found
    cases found
  · intro p bytes member
    cases member
  · intro p member
    cases member
  · intro p size visible
    cases visible

theorem run_solo {session : SessionRow} (sized : session.Sized) (empty : session.bytesReceived = 0)
    (sequential : Schedule.Along step Sequential (created session) events)
    (ran : Schedule.run step (created session) events = some sys) :
    Solo session.totalSize session.chunkSize (answers (created session) events) sys :=
  Schedule.run_outputs step_solo (created_solo sized empty) sequential ran

section Resuming

theorem listReceivedParts_nodup (parts : KeyMap Int PartVersion) : (listReceivedParts parts).Nodup := by
  have keys : (parts.entries.map Sigma.fst).Nodup := parts.nodupKeys
  have visible : ((parts.entries.filter (fun entry => entry.2.committed.isSome)).map Sigma.fst).Sublist _ :=
    List.filter_sublist.map Sigma.fst
  exact (List.perm_insertionSort _ _).nodup_iff.mpr (keys.sublist visible)

theorem partNumbers_card : (partNumbers total chunk).card = (totalParts total chunk).toNat := by
  rw [partNumbers,card_image_of_injective _ (fun a b same => Int.natCast_inj.mp same),card_range]

theorem totalParts_lt (positive : 0 < total) : totalParts total chunk < 2^31 := by
  rw [totalParts,if_neg (Int.not_le.mpr positive)]
  exact Int.lt_of_lt_of_le (Int.bmod_lt (by decide)) (by decide)

def Covered (total chunk : Int) (parts : KeyMap Int PartVersion) : Prop :=
  ∀ k : Nat, k * chunk < total → (k : Int) ∈ listReceivedParts parts

variable {committed : SessionRow}

section
variable (sized : committed.Sized)
variable (listed : ∀ p ∈ listReceivedParts parts, Whole committed.totalSize committed.chunkSize p (shown parts p))
variable (covered : Covered committed.totalSize committed.chunkSize parts)
include sized listed covered

theorem listed_exact :
    p ∈ listReceivedParts parts ↔ p ∈ partNumbers committed.totalSize committed.chunkSize := by
  constructor
  · intro member
    obtain ⟨size,expected,_⟩ := listed p member
    exact mem_partNumbers.mpr (expected_inside expected)
  · intro member
    obtain ⟨nonneg,less⟩ := mem_partNumbers.mp member
    have begins := part_begins_inside sized less
    obtain ⟨k,rfl⟩ := Int.eq_ofNat_of_zero_le nonneg
    exact covered k begins

theorem partBytes_whole (within : ∀ p row, parts.get p = some row → p ∈ partNumbers committed.totalSize committed.chunkSize) :
    partBytes parts = committed.totalSize := by
  have exact_ := fun p => listed_exact (p := p) sized listed covered
  have share : ∀ p ∈ partNumbers committed.totalSize committed.chunkSize,
      ((parts.get p).map (fun row => storedSize row.committed)).getD 0 =
        min committed.chunkSize (committed.totalSize - p * committed.chunkSize) := by
    intro p member
    obtain ⟨size,expected,_,visible⟩ := listed p ((exact_ p).mpr member)
    obtain ⟨_,_,rfl⟩ := expectedPartSize_ok expected
    obtain ⟨r,stored,same⟩ := map_eq_some_iff.mp visible
    rw [← same]
    cases found : parts.get p with
    | none =>
      rw [cell,found] at stored
      cases stored
    | some row =>
      rw [cell_get found] at stored
      rw [map_some,getD_some,stored]
      rfl
  rw [partBytes,total_eq_sum within,sum_congr rfl share,partNumbers_sum sized]
  -- the byte after the last part would lie in a part of its own
  refine Int.min_eq_right (Int.not_lt.mp ?_)
  intro short
  have beyond := mem_partNumbers.mp ((exact_ _).mp (covered _ short))
  omega

end

theorem covered_complete (tables : Tables total chunk session parts)
    (listed : ∀ p ∈ listReceivedParts parts, Whole total chunk p (shown parts p)) (covered : Covered total chunk parts) :
    partsComplete session.committed (listReceivedParts parts).length = .ok () := by
  obtain ⟨sized,rfl,rfl,_,balance,within,_,_⟩ := tables
  have inside : ∀ p row, parts.get p = some row →
      p ∈ partNumbers session.committed.totalSize session.committed.chunkSize :=
    fun p row found => mem_partNumbers.mpr (within p row found)
  have bytes := partBytes_whole sized listed covered inside
  have same : (listReceivedParts parts).toFinset = partNumbers session.committed.totalSize session.committed.chunkSize := by
    ext p
    rw [List.mem_toFinset]
    exact listed_exact sized listed covered
  have length : (listReceivedParts parts).length = (totalParts session.committed.totalSize session.committed.chunkSize).toNat := by
    rw [← List.toFinset_card_of_nodup (listReceivedParts_nodup parts),same,partNumbers_card]
  have first := mem_partNumbers.mp ((listed_exact sized listed covered).mp (covered 0 (by simpa using sized.positive)))
  have few : totalParts session.committed.totalSize session.committed.chunkSize < 2^31 := totalParts_lt sized.positive
  have count : asI32 (listReceivedParts parts).length = totalParts session.committed.totalSize session.committed.chunkSize := by
    rw [length,Int.toNat_of_nonneg (Int.le_of_lt (Int.lt_of_le_of_lt first.1 first.2))]
    exact Int.bmod_eq_of_le (by omega) (by omega)
  unfold partsComplete
  dsimp only
  rw [if_pos ⟨count,balance.trans bytes⟩]

end Resuming

section Runs
variable {now totalSize : Int} {id userId fileOwnerId : String} {isVideo : Bool} {contentHash : Option String}
  {value : Option Int}

-- What is reported is stored exactly where no signed URL was left without its part;
-- then a client that skips the reported parts can complete.
theorem reported_iff_confirmed (positive : 0 < totalSize) (word : totalSize < 2^63)
    (normal : normalizeChunkSize value = .ok chunk)
    (sequential : Schedule.Along step Sequential
      (created (insertSession now id userId fileOwnerId isVideo totalSize chunk contentHash)) events)
    (ran : Schedule.run step (created (insertSession now id userId fileOwnerId isVideo totalSize chunk contentHash)) events =
      some sys) :
    let answered := answers (created (insertSession now id userId fileOwnerId isVideo totalSize chunk contentHash)) events
    (Reported totalSize chunk answered sys.parts ↔ Confirmed answered) ∧
      (Confirmed answered → Covered totalSize chunk sys.parts →
        partsComplete sys.session.committed (listReceivedParts sys.parts).length = .ok ()) := by
  have solo := run_solo (insertSession_sized positive word normal) rfl sequential ran
  refine ⟨solo.register.reported,?_⟩
  intro confirmed covered
  exact covered_complete solo.ledger.tables (solo.register.reported.mpr confirmed).listed covered

end Runs

def urlMinted : List Event := [.begin 1 "u" (.signedPartUrl 0 "t") none,.advance 0 1,.advance 0 1]

def urlConfirmed : List Event :=
  urlMinted ++ [.begin 2 "u" (.confirmPart 0 "t" none) none,.advance 1 2,.verify 1 (some 1048576) (.ok true),.advance 1 3,
    .advance 1 3,.advance 1 3,.advance 1 3,.advance 1 3]

theorem reported_iff_confirmed_part : ∃ sys, Schedule.run step onePart urlConfirmed = some sys ∧
    answers onePart urlConfirmed = [(0,.minted),(0,.recorded 1048576)] ∧
    Reported 1048576 1048576 (answers onePart urlConfirmed) sys.parts := by
  obtain ⟨sys,ran,_⟩ := map_eq_some_iff.mp (by decide +kernel : bytesShown urlConfirmed =
    some (1048576,1048576,[.done .minted,.done (.recorded 1048576)]))
  have sequential : Schedule.Along step Sequential onePart urlConfirmed := by decide +kernel
  have answered : answers onePart urlConfirmed = [(0,.minted),(0,.recorded 1048576)] := by decide +kernel
  obtain ⟨reported,_⟩ := reported_iff_confirmed (by decide) (by decide)
    (by decide : normalizeChunkSize (some 1048576) = .ok 1048576) sequential ran
  have confirmed : Confirmed (answers onePart urlConfirmed) := by
    intro p minted
    rw [answered] at minted ⊢
    simp only [List.mem_cons,Prod.mk.injEq,reduceCtorEq,and_true,and_false,List.not_mem_nil,or_false] at minted
    rw [minted]
    exact ⟨1048576,List.mem_cons_of_mem _ List.mem_cons_self⟩
  exact ⟨sys,ran,answered,reported.mpr confirmed⟩

theorem placeholder_listed : ∃ sys, Schedule.run step onePart urlMinted = some sys ∧ 0 ∈ listReceivedParts sys.parts ∧
    shown sys.parts 0 = some 0 ∧ ¬Reported 1048576 1048576 (answers onePart urlMinted) sys.parts := by
  obtain ⟨sys,ran,visible⟩ := map_eq_some_iff.mp (by decide +kernel :
    (Schedule.run step onePart urlMinted).map (fun sys => shown sys.parts 0) = some (some 0))
  have listed : 0 ∈ listReceivedParts sys.parts := mem_listReceivedParts.mpr ⟨0,visible⟩
  refine ⟨sys,ran,listed,visible,?_⟩
  intro reported
  obtain ⟨size,_,positive,same⟩ := reported.listed 0 listed
  rw [visible] at same
  cases same
  exact Int.lt_irrefl 0 positive

end Ownly.Uploads.Parts
