import Ownly.Lib.RowVersion
import Ownly.Lib.Schedule
import Ownly.Uploads.Store
import Mathlib.Data.List.Sort

-- The part endpoints on one session, side by side: each SQL statement is one step,
-- and `record_part_with_checksum` is a transaction under READ COMMITTED.
namespace Ownly.Uploads.Parts

abbrev PartVersion := RowVersion Nat (Option PartRow)

inductive Request where
  | signedPartUrl (part : Int) (token : String)
  | confirmPart (part : Int) (token : String) (sha : Option String)
  | uploadPart (part size : Int) (sha : Option String)
  | completeSession

inductive Outcome where
  | minted
  | recorded (bytesReceived : Int)
  | complete
  | refused (error : AppError)
  | dropped
  deriving DecidableEq, Repr

-- The statement a request is about to run. From `upgrading` to `committing` its
-- transaction is open.
inductive Phase where
  | signing (part : Int) (token : String)
  | placing (part : Int) (token : String)
  | matching (part : Int) (token : String) (sha : Option String)
  | verifying (part : Int) (token : String) (sha : Option String)
  | consuming (part : Int) (token : String) (size : Int) (sha : Option String)
  | rescuing (part : Int)
  | reloading (part : Int)
  | selecting (part size : Int) (sha : Option String)
  | upgrading (part size : Int) (sha : Option String)
  | stamping (part : Int) (sha : Option String)
  | reading (part : Int)
  | inserting (part size : Int) (sha : Option String)
  | crediting (part size : Int)
  | committing (part bytesReceived : Int)
  | listing
  | done (outcome : Outcome)
  deriving DecidableEq, Repr

-- `copy` is the session row the request has loaded.
structure Task where
  copy : SessionRow
  phase : Phase

structure System where
  session : RowVersion Nat SessionRow
  parts : KeyMap Int PartVersion
  tasks : List Task

inductive Event where
  | begin (now : Int) (userId : String) (request : Request) (refusal : Option AppError)
  | advance (task : Nat) (now : Int)
  | verify (task : Nat) (stored : Option Int) (digest : Except AppError Bool)
  | drop (task : Nat)

-- A part number without a row reads as a row version that holds none.
def cell (parts : KeyMap Int PartVersion) (part : Int) : PartVersion := (parts.get part).getD ⟨none,none⟩

-- `ORDER BY part_number ASC`
def listReceivedParts (parts : KeyMap Int PartVersion) : List Int :=
  ((parts.entries.filter (fun entry => entry.2.committed.isSome)).map Sigma.fst).insertionSort (· ≤ ·)

-- What stands before the first statement on a part row. `refusal` is the answer of
-- the checks outside these tables: quota and minting rate for a signed URL, digest
-- and staging for an uploaded part.
def begin (now : Int) (userId : String) (refusal : Option AppError) (session : SessionRow) (request : Request) : Phase :=
  if session.userId ≠ userId then .done (.refused .notFound)
  else match ensureSessionActive now session with
    | .error e => .done (.refused e)
    | .ok () =>
      match request with
      | .completeSession => .listing
      | .signedPartUrl part token =>
        if session.isVideo then
          .done (.refused (.badRequest "direct part upload is not available for this session"))
        else match refusal,expectedPartSize session.totalSize session.chunkSize part with
          | some e,_ => .done (.refused e)
          | none,.error e => .done (.refused e)
          | none,.ok _ => .signing part token
      | .confirmPart part token sha =>
        if session.isVideo then
          .done (.refused (.badRequest "confirm is only used for direct (non-video) part uploads"))
        else if token = "" then .done (.refused (.badRequest "confirm_token is required"))
        else .matching part token sha
      | .uploadPart part size sha =>
        match expectedPartSize session.totalSize session.chunkSize part with
        | .error e => .done (.refused e)
        | .ok expected =>
          if size ≠ expected then
            .done (.refused (.badRequest s!"part {part} must be exactly {expected} bytes"))
          else match refusal with
            | some e => .done (.refused e)
            | none => .selecting part size sha

-- Where a request can stand then: a size it was checked against is the expected one.
inductive Begins (session : SessionRow) : Phase → Prop where
  | refused (e : AppError) : Begins session (.done (.refused e))
  | listing : Begins session .listing
  | signing (part : Int) (token : String) (sized : expectedPartSize session.totalSize session.chunkSize part = .ok size) :
    Begins session (.signing part token)
  | matching (part : Int) (token : String) (sha : Option String) : Begins session (.matching part token sha)
  | selecting (sha : Option String) (sized : expectedPartSize session.totalSize session.chunkSize part = .ok size) :
    Begins session (.selecting part size sha)

theorem begin_begins (now : Int) (userId : String) (refusal : Option AppError) (session : SessionRow) (request : Request) :
    Begins session (begin now userId refusal session request) := by
  unfold begin
  split
  · exact .refused _
  · generalize ensureSessionActive now session = active
    cases active with
    | error e => exact .refused e
    | ok _ =>
      cases request with
      | completeSession => exact .listing
      | signedPartUrl part token =>
        dsimp only
        split
        · exact .refused _
        · generalize sized : expectedPartSize session.totalSize session.chunkSize part = size
          cases refusal with
          | some e => exact .refused e
          | none =>
            cases size with
            | error e => exact .refused e
            | ok size => exact .signing part token sized
      | confirmPart part token sha =>
        dsimp only
        split
        · exact .refused _
        · split
          · exact .refused _
          · exact .matching part token sha
      | uploadPart part size sha =>
        dsimp only
        generalize sized : expectedPartSize session.totalSize session.chunkSize part = answer
        cases answer with
        | error e => exact .refused e
        | ok whole =>
          dsimp only
          split
          · exact .refused _
          · rename_i same
            cases refusal with
            | some e => exact .refused e
            | none =>
              have size := Decidable.not_not.mp same
              subst size
              exact .selecting sha sized

-- The staged object against the expected size, and against the client's digest if
-- there is one; `digest` is an error where either digest cannot be had.
def verify (copy : SessionRow) (stored : Option Int) (digest : Except AppError Bool) (part : Int) (token : String)
    (sha : Option String) : Phase :=
  match expectedPartSize copy.totalSize copy.chunkSize part with
  | .error e => .done (.refused e)
  | .ok expected =>
    match stored with
    | none => .done (.refused (.badRequest s!"staged part {part} not found — upload the part before confirming"))
    | some length =>
      if length ≠ expected then
        .done (.refused (.badRequest s!"staged part {part} is {length} bytes, expected {expected}"))
      else match sha,digest with
        | none,_ => .consuming part token expected none
        | some _,.error e => .done (.refused e)
        | some _,.ok false => .done (.refused (.badRequest s!"staged part {part} checksum mismatch"))
        | some sha,.ok true => .consuming part token expected (some sha)

theorem verify_cases (copy : SessionRow) (stored : Option Int) (digest : Except AppError Bool) (part : Int) (token : String)
    (sha : Option String) : (∃ e, verify copy stored digest part token sha = .done (.refused e)) ∨
      ∃ size sha', verify copy stored digest part token sha = .consuming part token size sha' ∧
        expectedPartSize copy.totalSize copy.chunkSize part = .ok size := by
  unfold verify
  generalize sized : expectedPartSize copy.totalSize copy.chunkSize part = answer
  cases answer with
  | error e => exact .inl ⟨e,rfl⟩
  | ok size =>
    cases stored with
    | none => exact .inl ⟨_,rfl⟩
    | some length =>
      dsimp only
      split
      · exact .inl ⟨_,rfl⟩
      · cases sha with
        | none => exact .inr ⟨size,none,rfl,rfl⟩
        | some sha =>
          cases digest with
          | error e => exact .inl ⟨e,rfl⟩
          | ok matched =>
            cases matched with
            | false => exact .inl ⟨_,rfl⟩
            | true => exact .inr ⟨size,some sha,rfl,rfl⟩

def answerCompletion : Except AppError Unit → Phase
  | .ok () => .done .complete
  | .error e => .done (.refused e)

-- The next statement of a request, on the two tables; `none` while it has to wait.
def advance (task : Nat) (now : Int) (copy : SessionRow) (session : RowVersion Nat SessionRow)
    (parts : KeyMap Int PartVersion) : Phase → Option (Phase × RowVersion Nat SessionRow × KeyMap Int PartVersion)
  | .signing part token =>
    match (cell parts part).committed with
    | none => some (.placing part token,session,parts)
    | some _ => ((cell parts part).writeThrough (Option.map (PartRow.signed token))).map
        (fun row => (.done .minted,session,parts.set part row))
  | .placing part token =>
    ((cell parts part).writeThrough (fun row => some ((row.map (PartRow.signed token)).getD (.placeholder token)))).map
      (fun row => (.done .minted,session,parts.set part row))
  | .matching part token sha =>
    if ((cell parts part).committed.bind PartRow.signedToken) = some token then
      some (.verifying part token sha,session,parts)
    else some (.done (.refused tokenConflict),session,parts)
  | .consuming part token size sha =>
    if ((cell parts part).committed.bind PartRow.signedToken) = some token then
      ((cell parts part).writeThrough (Option.map (PartRow.consumed token))).map
        (fun row => (.selecting part size sha,session,parts.set part row))
    else some (.rescuing part,session,parts)
  -- a confirm that lost its token succeeds if the part is listed
  | .rescuing part =>
    if part ∈ listReceivedParts parts then some (.reloading part,session,parts)
    else some (.done (.refused tokenConflict),session,parts)
  | .reloading _ => some (.done (.recorded session.committed.bytesReceived),session,parts)
  | .selecting part size sha =>
    match recordPlan (cell parts part).committed size sha with
    | .upgrade => some (.upgrading part size sha,session,parts)
    | .stamp => some (.stamping part sha,session,parts)
    | .keep => some (.reading part,session,parts)
    | .conflict => some (.done (.refused recordConflict),session,parts)
    | .insert => some (.inserting part size sha,session,parts)
  | .upgrading part size sha =>
    ((cell parts part).write task (Option.map (PartRow.upgraded size sha))).map
      (fun row => (.crediting part size,session,parts.set part row))
  | .stamping part sha =>
    ((cell parts part).write task (Option.map (PartRow.stamped sha))).map
      (fun row => (.reading part,session,parts.set part row))
  | .reading part => some (.committing part session.committed.bytesReceived,session,parts)
  | .inserting part size sha =>
    match (cell parts part).pending,(cell parts part).committed with
    | some _,_ => none
    | none,some _ => some (.done (.refused (.database "upload_session_parts_pkey")),session,parts)
    | none,none => ((cell parts part).write task (fun _ => some (.recorded size sha))).map
        (fun row => (.crediting part size,session,parts.set part row))
  | .crediting part size =>
    (session.write task (SessionRow.credited now size)).map
      (fun session => (.committing part ((session.pending.map (fun held => held.2.bytesReceived)).getD 0),session,parts))
  | .committing part bytesReceived =>
    some (.done (.recorded bytesReceived),session.commit task,parts.set part ((cell parts part).commit task))
  -- the completion test takes the session row as it was before the parts are listed
  | .listing => some (answerCompletion (partsComplete copy (listReceivedParts parts).length),session,parts)
  | .verifying _ _ _ => none
  | .done _ => none

def step (sys : System) : Event → Option System
  | .begin now userId request refusal =>
    let copy := sys.session.committed
    some {sys with tasks := sys.tasks ++ [⟨copy,begin now userId refusal copy request⟩]}
  | .advance i now =>
    match sys.tasks[i]? with
    | none => none
    | some task =>
      match advance i now task.copy sys.session sys.parts task.phase with
      | none => none
      | some (phase,session,parts) => some ⟨session,parts,sys.tasks.set i ⟨task.copy,phase⟩⟩
  | .verify i stored digest =>
    match sys.tasks[i]? with
    | some ⟨copy,.verifying part token sha⟩ =>
      some {sys with tasks := sys.tasks.set i ⟨copy,verify copy stored digest part token sha⟩}
    | _ => none
  -- an error of the database, or a request that is cancelled: its transaction is undone
  | .drop i =>
    match sys.tasks[i]? with
    | none => none
    | some ⟨_,.done _⟩ => none
    | some task =>
      some ⟨sys.session.rollback i,sys.parts.mapValues (RowVersion.rollback i),sys.tasks.set i ⟨task.copy,.done .dropped⟩⟩

def created (session : SessionRow) : System := ⟨⟨session,none⟩,KeyMap.empty,[]⟩

end Ownly.Uploads.Parts
