import FogDispatch.Number.Rational
import FogDispatch.Proofs.Loading
import Mathlib.Data.List.TakeWhile
import Mathlib.Order.Bounds.Defs

/-!
# Joining tasks to jobs

The tasks of a dataset are joined to its jobs by taking, for each job row, all
next task rows that carry its id.  Nothing is lost by taking as many as
possible: what a later job row could still take is taken all the same if some of
its tasks are gone already.  So the tables are joined if and only if the owners
of the tasks can be cut into one block for each job row, and the task row that
is refused is the first one that no such cut reaches.
-/

namespace FogDispatch

namespace Dataset

/-! ## Blocks of owners -/

/-- The owners are a block for each id, in order, and each block has no other
owner than its id.  Blocks may be empty. -/
def Splits (ids owners : List JobId) : Prop :=
  ∃ blocks : List (List JobId), owners = blocks.flatten ∧
    List.Forall₂ (fun id block => ∀ owner ∈ block, owner = id) ids blocks

/-- Each owner is given the first row of its id that is not before the row of
the owner in front of it. -/
inductive Seated (ids : List JobId) : Nat → List JobId → List Nat → Prop
  | nil (start : Nat) : Seated ids start [] []
  | cons {start seat : Nat} {owner : JobId} {owners : List JobId}
      {seats : List Nat}
      (least : IsLeast {row | start ≤ row ∧ ids[row]? = some owner} seat)
      (rest : Seated ids seat owners seats) :
      Seated ids start (owner :: owners) (seat :: seats)

/-- The rows that take the owners one after the other, each as many as it can,
as long as the owners find a row. -/
def seats : List JobId → List JobId → List Nat
  | [], _ => []
  | id :: ids, owners =>
    List.replicate (owners.takeWhile (· = id)).length 0 ++
      (seats ids (owners.dropWhile (· = id))).map (· + 1)

theorem splits_nil_iff {owners : List JobId} :
    Splits [] owners ↔ owners = [] := by
  simp [Splits]

theorem splits_cons_iff {id : JobId} {ids owners : List JobId} :
    Splits (id :: ids) owners ↔ ∃ block rest, owners = block ++ rest ∧
      (∀ owner ∈ block, owner = id) ∧ Splits ids rest := by
  unfold Splits
  simp only [List.forall₂_cons_left_iff]
  constructor
  · rintro ⟨_, rfl, block, blocks, hblock, hblocks, rfl⟩
    exact ⟨block, blocks.flatten, List.flatten_cons, hblock, blocks, rfl,
      hblocks⟩
  · rintro ⟨block, _, rfl, hblock, blocks, rfl, hblocks⟩
    exact ⟨block :: blocks, List.flatten_cons.symm, block, blocks, hblock,
      hblocks, rfl⟩

/-- Owners that are gone do not get in the way of later ones. -/
theorem Splits.drop {ids owners : List JobId} (hsplits : Splits ids owners)
    (count : Nat) : Splits ids (owners.drop count) := by
  induction ids generalizing owners count with
  | nil =>
      rw [splits_nil_iff] at hsplits ⊢
      rw [hsplits, List.drop_nil]
  | cons id ids ih =>
      obtain ⟨block, rest, rfl, hblock, hrest⟩ := splits_cons_iff.mp hsplits
      rw [List.drop_append]
      exact splits_cons_iff.mpr ⟨block.drop count, _, rfl,
        fun owner hmem => hblock owner (List.mem_of_mem_drop hmem),
        ih hrest _⟩

/-- The first row may as well take all owners that it can. -/
theorem splits_cons_iff_dropWhile {id : JobId} {ids owners : List JobId} :
    Splits (id :: ids) owners ↔
      Splits ids (owners.dropWhile (· = id)) := by
  rw [splits_cons_iff]
  constructor
  · rintro ⟨block, rest, rfl, hblock, hrest⟩
    rw [List.dropWhile_append_of_pos (by simpa using hblock),
      List.dropWhile_eq_drop_findIdx_not]
    exact hrest.drop _
  · intro hrest
    refine ⟨owners.takeWhile (· = id), _,
      List.takeWhile_append_dropWhile.symm, ?_, hrest⟩
    intro owner howner
    simpa using List.mem_takeWhile_imp howner

theorem dropWhile_take {γ : Type} (p : γ → Bool) (count : Nat) (xs : List γ) :
    (xs.take count).dropWhile p =
      (xs.dropWhile p).take (count - (xs.takeWhile p).length) := by
  induction xs generalizing count with
  | nil => simp
  | cons x rest ih =>
      cases count with
      | zero => simp
      | succ count =>
          by_cases hx : p x = true
          · simp [hx, ih]
          · simp [hx]

theorem length_takeWhile_add {γ : Type} (p : γ → Bool) (xs : List γ) :
    (xs.takeWhile p).length + (xs.dropWhile p).length = xs.length := by
  rw [← List.length_append, List.takeWhile_append_dropWhile]

/-- The owners that find a row are the longest part that is a sequence of
blocks. -/
theorem splits_take_iff {ids owners : List JobId} {count : Nat}
    (hcount : count ≤ owners.length) :
    Splits ids (owners.take count) ↔ count ≤ (seats ids owners).length := by
  induction ids generalizing owners count with
  | nil =>
      rw [splits_nil_iff, seats, List.take_eq_nil_iff, List.length_nil]
      constructor
      · rintro (rfl | rfl)
        · exact Nat.le_refl 0
        · exact hcount
      · intro hnone
        exact Or.inl (Nat.le_zero.mp hnone)
  | cons id ids ih =>
      have hlength := length_takeWhile_add (· = id) owners
      rw [splits_cons_iff_dropWhile, dropWhile_take, ih (by omega), seats,
        List.length_append, List.length_replicate, List.length_map]
      omega

theorem length_seats_le (ids owners : List JobId) :
    (seats ids owners).length ≤ owners.length := by
  induction ids generalizing owners with
  | nil => exact Nat.zero_le _
  | cons id ids ih =>
      have hlength := length_takeWhile_add (· = id) owners
      have hrest := ih (owners.dropWhile (· = id))
      rw [seats, List.length_append, List.length_replicate, List.length_map]
      omega

theorem splits_iff {ids owners : List JobId} :
    Splits ids owners ↔ (seats ids owners).length = owners.length := by
  have hall : Splits ids (owners.take owners.length) ↔ _ :=
    splits_take_iff (Nat.le_refl owners.length)
  rw [List.take_length] at hall
  rw [hall, (length_seats_le ids owners).ge_iff_eq]

/-! ## The rows of owners -/

/-- Owners of the first id are given the first row. -/
theorem Seated.replicate_append {id : JobId} {ids owners : List JobId}
    {seats : List Nat} (hseated : Seated (id :: ids) 0 owners seats)
    (count : Nat) :
    Seated (id :: ids) 0 (List.replicate count id ++ owners)
      (List.replicate count 0 ++ seats) := by
  induction count with
  | zero => exact hseated
  | succ count ih =>
      exact .cons ⟨⟨Nat.le_refl 0, rfl⟩, fun _ _ => Nat.zero_le _⟩ ih

/-- One more row in front moves all rows by one. -/
theorem Seated.shift {ids owners : List JobId} {start : Nat}
    {seats : List Nat} (hseated : Seated ids start owners seats) (id : JobId) :
    Seated (id :: ids) (start + 1) owners (seats.map (· + 1)) := by
  induction hseated with
  | nil start => exact .nil (start + 1)
  | @cons start seat owner owners seats hleast _ ih =>
      obtain ⟨⟨hstart, hseat⟩, hbound⟩ := hleast
      refine .cons ⟨⟨Nat.succ_le_succ hstart, hseat⟩, ?_⟩ ih
      rintro (_ | row) ⟨hrow, hid⟩
      · exact absurd hrow (Nat.not_succ_le_zero start)
      · exact Nat.succ_le_succ (hbound ⟨Nat.le_of_succ_le_succ hrow, hid⟩)

/-- A row of another id may stand in front of all rows. -/
theorem Seated.start {ids owners : List JobId} {id : JobId}
    {seats : List Nat} (hseated : Seated (id :: ids) 1 owners seats)
    (hother : owners.head? ≠ some id) :
    Seated (id :: ids) 0 owners seats := by
  cases hseated with
  | nil => exact .nil 0
  | @cons _ seat owner owners seats hleast hrest =>
      obtain ⟨⟨_, hseat⟩, hbound⟩ := hleast
      refine .cons ⟨⟨Nat.zero_le seat, hseat⟩, ?_⟩ hrest
      rintro (_ | row) ⟨_, hid⟩
      · exact absurd hid.symm hother
      · exact hbound ⟨Nat.succ_le_succ (Nat.zero_le row), hid⟩

theorem head?_dropWhile_ne (id : JobId) (owners : List JobId) :
    (owners.dropWhile (· = id)).head? ≠ some id := by
  intro hhead
  have hnot := List.head?_dropWhile_not (· = id) owners
  rw [hhead] at hnot
  simp at hnot

theorem take_seats_cons (id : JobId) (ids owners : List JobId) :
    owners.take (seats (id :: ids) owners).length =
      List.replicate (owners.takeWhile (· = id)).length id ++
        (owners.dropWhile (· = id)).take
          (seats ids (owners.dropWhile (· = id))).length := by
  have hblock : owners.takeWhile (· = id) =
      List.replicate (owners.takeWhile (· = id)).length id := by
    rw [List.eq_replicate_iff]
    exact ⟨rfl, fun owner howner => by
      simpa using List.mem_takeWhile_imp howner⟩
  have hlength : (seats (id :: ids) owners).length =
      (owners.takeWhile (· = id)).length +
        (seats ids (owners.dropWhile (· = id))).length := by
    rw [seats, List.length_append, List.length_replicate, List.length_map]
  calc owners.take (seats (id :: ids) owners).length
    _ = (owners.takeWhile (· = id) ++ owners.dropWhile (· = id)).take
          (seats (id :: ids) owners).length := by
        rw [List.takeWhile_append_dropWhile]
    _ = owners.takeWhile (· = id) ++ (owners.dropWhile (· = id)).take
          (seats ids (owners.dropWhile (· = id))).length := by
        rw [hlength, List.take_length_add_append]
    _ = _ := by rw [← hblock]

theorem seated_seats (ids owners : List JobId) :
    Seated ids 0 (owners.take (seats ids owners).length)
      (seats ids owners) := by
  induction ids generalizing owners with
  | nil => exact .nil 0
  | cons id ids ih =>
      rw [take_seats_cons, seats]
      apply Seated.replicate_append
      apply Seated.start ((ih _).shift id)
      rw [List.head?_take]
      split
      next => exact nofun
      next => exact head?_dropWhile_ne id owners

theorem Seated.unique {ids owners : List JobId} {start : Nat}
    {rows others : List Nat} (hrows : Seated ids start owners rows)
    (hothers : Seated ids start owners others) : rows = others := by
  induction hrows generalizing others with
  | nil start =>
      cases hothers
      rfl
  | cons hleast _ ih =>
      cases hothers with
      | cons hother hrest =>
          obtain rfl := hleast.unique hother
          exact congrArg (List.cons _) (ih hrest)

end Dataset

/-! ## Cells -/

/-- What the cells of a job row tell. -/
structure JobCells (α : Type) where
  id : JobId
  /-- The submission time, counted from the job row before. -/
  submission : α
  maxParallel : Nat
  groups : List (List Nat)

/-- What the cells of a task row tell. -/
structure TaskCells (α : Type) where
  job : JobId
  localId : Nat
  priority : Priority
  /-- The submission time, counted from that of the job. -/
  submission : α
  /-- The deadline, counted from the arrival. -/
  deadline : α
  length : α
  memory : α
  storage : α

variable {α : Type} [Arith α]

def JobCells.job (cells : JobCells α) : Job :=
  Job.fresh cells.id cells.maxParallel cells.groups

def TaskCells.arrival (cells : TaskCells α) (offset : α) : Time α :=
  ⟨offset + cells.submission⟩

/-- The task of a row at its place, if its job is submitted at `offset`. -/
def TaskCells.task (cells : TaskCells α) (scale offset : α) (id : TaskId) :
    Task α where
  id := id
  job := cells.job
  localId := cells.localId
  priority := cells.priority
  arrival := cells.arrival offset
  deadline := cells.arrival offset + (⟨cells.deadline⟩ : Span α)
  length := cells.length * scale
  memory := cells.memory
  storage := cells.storage
  node := none
  decisionCost := Span.zero
  start := none
  finish := none

/-- All cells of a job row are readable. -/
structure Row.HoldsJob (row : Row) (cells : JobCells α) : Prop where
  id_eq : row.natural Column.jobId.place = .ok cells.id.number
  submission_eq : row.real Column.jobSubmission.place = .ok cells.submission
  groups_eq : ∃ text, row.cell Column.jobGroups.place = .ok text ∧
    Groups.read? text = some cells.groups
  maxParallel_eq : row.natural Column.jobMaxParallel.place =
    .ok cells.maxParallel

/-- All cells of a task row are readable. -/
structure Row.HoldsTask (row : Row) (cells : TaskCells α) : Prop where
  job_eq : row.natural Column.taskJob.place = .ok cells.job.number
  localId_eq : row.natural Column.taskId.place = .ok cells.localId
  priority_eq : row.value Column.taskPriority.place (Whole.readNat 255) =
    .ok cells.priority.level
  submission_eq : row.real Column.taskSubmission.place = .ok cells.submission
  deadline_eq : row.real Column.taskDeadline.place = .ok cells.deadline
  length_eq : row.real Column.taskLength.place = .ok cells.length
  memory_eq : row.real Column.taskMemory.place = .ok cells.memory
  storage_eq : row.real Column.taskStorage.place = .ok cells.storage

theorem Priority.ofLevel?_level (priority : Priority) :
    Priority.ofLevel? priority.level = some priority := by
  rw [ofLevel?, dif_pos ⟨priority.one_le, priority.le_five⟩]

namespace Dataset

theorem readJob_of_holds {row : Row} {cells : JobCells α}
    (hrow : row.HoldsJob cells) :
    readJob row = .ok (cells.submission, cells.job) := by
  obtain ⟨text, hcell, hgroups⟩ := hrow.groups_eq
  unfold readJob
  rw [hrow.id_eq, hrow.submission_eq, hcell, hrow.maxParallel_eq]
  dsimp only [bind, Except.bind]
  rw [hgroups]
  rfl

theorem readTask_of_holds {row : Row} {cells : TaskCells α}
    (hrow : row.HoldsTask cells) (scale offset : α) (id : TaskId) :
    readTask scale cells.job offset id row =
      .ok (cells.task scale offset id) := by
  unfold readTask
  rw [hrow.submission_eq, hrow.priority_eq, hrow.localId_eq, hrow.deadline_eq,
    hrow.length_eq, hrow.memory_eq, hrow.storage_eq]
  dsimp only [bind, Except.bind]
  rw [Priority.ofLevel?_level]
  rfl

/-- The tasks of some rows, numbered from `next`, given the job row of each and
the submission times of job rows. -/
def dealt (scale : α) (submitted : Nat → α) :
    Nat → List (TaskCells α) → List Nat → List (Task α)
  | next, cells :: tasks, seat :: seats =>
    cells.task scale (submitted seat) ⟨next⟩ ::
      dealt scale submitted (next + 1) tasks seats
  | _, _, _ => []

theorem dealt_append (scale : α) (submitted : Nat → α) (next : Nat)
    {block left : List (TaskCells α)} {front back : List Nat}
    (hfront : front.length = block.length) :
    dealt scale submitted next (block ++ left) (front ++ back) =
      dealt scale submitted next block front ++
        dealt scale submitted (next + block.length) left back := by
  induction block generalizing next front with
  | nil =>
      obtain rfl := List.length_eq_zero_iff.mp hfront
      rfl
  | cons cells block ih =>
      cases front with
      | nil => exact absurd hfront (Nat.zero_ne_add_one _)
      | cons seat front =>
          have hrest := ih (next + 1) (Nat.succ.inj hfront)
          rw [Nat.add_right_comm] at hrest
          exact congrArg (List.cons _) hrest

theorem dealt_map_succ (scale : α) (submitted : Nat → α) (next : Nat)
    (tasks : List (TaskCells α)) (seats : List Nat) :
    dealt scale submitted next tasks (seats.map (· + 1)) =
      dealt scale (fun seat => submitted (seat + 1)) next tasks seats := by
  induction tasks generalizing next seats with
  | nil => rfl
  | cons cells tasks ih =>
      cases seats with
      | nil => rfl
      | cons seat seats => exact congrArg (List.cons _) (ih (next + 1) seats)

theorem length_dealt (scale : α) (submitted : Nat → α) (next : Nat)
    {tasks : List (TaskCells α)} {seats : List Nat}
    (hseats : seats.length = tasks.length) :
    (dealt scale submitted next tasks seats).length = tasks.length := by
  induction tasks generalizing next seats with
  | nil => rfl
  | cons cells tasks ih =>
      cases seats with
      | nil => exact absurd hseats (Nat.zero_ne_add_one _)
      | cons seat seats =>
          exact congrArg (· + 1) (ih (next + 1) (Nat.succ.inj hseats))

theorem getElem?_dealt (scale : α) (submitted : Nat → α) (next : Nat)
    {tasks : List (TaskCells α)} {seats : List Nat} {index seat : Nat}
    {cells : TaskCells α} (hcells : tasks[index]? = some cells)
    (hseat : seats[index]? = some seat) :
    (dealt scale submitted next tasks seats)[index]? =
      some (cells.task scale (submitted seat) ⟨next + index⟩) := by
  induction tasks generalizing next seats index with
  | nil => exact nomatch hcells
  | cons first tasks ih =>
      cases seats with
      | nil => exact nomatch hseat
      | cons start seats =>
          cases index with
          | zero =>
              obtain rfl : first = cells := Option.some.inj hcells
              obtain rfl : start = seat := Option.some.inj hseat
              rfl
          | succ index =>
              have hrest := ih (next + 1) hcells hseat
              rw [Nat.add_right_comm] at hrest
              exact hrest

theorem takeTasks_of_holds {rows : List Row} {tasks : List (TaskCells α)}
    (hrows : List.Forall₂ Row.HoldsTask rows tasks) (scale : α)
    (submitted : Nat → α) (job : JobId) (next : Nat) :
    let block := tasks.takeWhile (·.job = job)
    takeTasks scale job (submitted 0) next rows =
      .ok (dealt scale submitted next block (List.replicate block.length 0),
        rows.drop block.length) := by
  induction hrows generalizing next with
  | nil => rfl
  | @cons row cells rows tasks hrow _ ih =>
      have howner : taskJob row = .ok cells.job := by
        rw [taskJob, hrow.job_eq]
        rfl
      unfold takeTasks
      rw [howner]
      dsimp only [bind, Except.bind]
      by_cases hjob : cells.job = job
      · subst hjob
        rw [if_pos rfl, readTask_of_holds hrow]
        dsimp only
        rw [ih, List.takeWhile_cons_of_pos (by simp)]
        rfl
      · rw [if_neg hjob, List.takeWhile_cons_of_neg (by simpa using hjob)]
        rfl

/-- The submission time of a job row: the offsets of all rows up to it, added up
from the front. -/
def submitted (start : α) (jobs : List (JobCells α)) (row : Nat) : α :=
  Arith.sumFrom start ((jobs.take (row + 1)).map JobCells.submission)

omit [Arith α] in
theorem seats_cons_map (id : JobId) (ids : List JobId)
    (tasks : List (TaskCells α)) :
    seats (id :: ids) (tasks.map TaskCells.job) =
      List.replicate (tasks.takeWhile (·.job = id)).length 0 ++
        (seats ids ((tasks.dropWhile (·.job = id)).map TaskCells.job)).map
          (· + 1) := by
  rw [seats, List.takeWhile_map, List.dropWhile_map, List.length_map]
  rfl

/-- A readable job row takes its block, and the rows behind it go on with what is
left. -/
theorem joinRows_cons {jobRow : Row} {job : JobCells α}
    (hjob : jobRow.HoldsJob job) {taskRows : List Row}
    {tasks : List (TaskCells α)}
    (htasks : List.Forall₂ Row.HoldsTask taskRows tasks) (scale start : α)
    (next : Nat) (jobRows : List Row) (submitted : Nat → α)
    (hsubmitted : submitted 0 = start + job.submission) :
    let block := tasks.takeWhile (·.job = job.id)
    joinRows scale start next (jobRow :: jobRows) taskRows =
      (joinRows scale (start + job.submission) (next + block.length) jobRows
        (taskRows.drop block.length)).map fun (jobs, more) =>
          (job.job :: jobs, dealt scale submitted next block
            (List.replicate block.length 0) ++ more) := by
  intro block
  have htake : takeTasks scale job.job.id (start + job.submission) next
      taskRows = .ok (dealt scale submitted next block
        (List.replicate block.length 0), taskRows.drop block.length) := by
    rw [← hsubmitted]
    exact takeTasks_of_holds htasks scale submitted job.id next
  have hlength : (dealt scale submitted next block
      (List.replicate block.length 0)).length = block.length :=
    length_dealt scale submitted next List.length_replicate
  rw [joinRows, readJob_of_holds hjob]
  dsimp only [bind, Except.bind, about, Except.mapError]
  rw [htake]
  dsimp only
  rw [hlength]
  cases joinRows scale (start + job.submission) (next + block.length) jobRows
    (taskRows.drop block.length) <;> rfl

theorem drop_length_takeWhile {γ : Type} (p : γ → Bool) (xs : List γ) :
    xs.drop (xs.takeWhile p).length = xs.dropWhile p := by
  have happend := List.takeWhile_append_dropWhile (p := p) (l := xs)
  have hdrop : (xs.takeWhile p ++ xs.dropWhile p).drop
      (xs.takeWhile p).length = xs.dropWhile p := List.drop_left
  rwa [happend] at hdrop

/-- The first job row deals the tasks of its block, and the rows behind it deal
what is left. -/
theorem dealt_cons (scale start : α) (next : Nat) (job : JobCells α)
    (jobs : List (JobCells α)) (tasks : List (TaskCells α)) :
    let block := tasks.takeWhile (·.job = job.id)
    let left := tasks.dropWhile (·.job = job.id)
    dealt scale (submitted start (job :: jobs)) next tasks
        (seats (job.id :: jobs.map JobCells.id) (tasks.map TaskCells.job)) =
      dealt scale (submitted start (job :: jobs)) next block
          (List.replicate block.length 0) ++
        dealt scale (submitted (start + job.submission) jobs)
          (next + block.length) left
          (seats (jobs.map JobCells.id) (left.map TaskCells.job)) := by
  intro block left
  have happend : block ++ left = tasks := List.takeWhile_append_dropWhile
  rw [seats_cons_map]
  calc dealt scale (submitted start (job :: jobs)) next tasks
        (List.replicate block.length 0 ++
          (seats (jobs.map JobCells.id) (left.map TaskCells.job)).map (· + 1))
    _ = dealt scale (submitted start (job :: jobs)) next (block ++ left)
        (List.replicate block.length 0 ++
          (seats (jobs.map JobCells.id) (left.map TaskCells.job)).map
            (· + 1)) := by rw [happend]
    _ = _ := by
        rw [dealt_append scale _ next List.length_replicate, dealt_map_succ]
        rfl

theorem joinRows_of_seats {jobRows : List Row} {jobs : List (JobCells α)}
    (hjobs : List.Forall₂ Row.HoldsJob jobRows jobs) {taskRows : List Row}
    {tasks : List (TaskCells α)}
    (htasks : List.Forall₂ Row.HoldsTask taskRows tasks) (scale start : α)
    (next : Nat)
    (hall : (seats (jobs.map JobCells.id) (tasks.map TaskCells.job)).length =
      tasks.length) :
    joinRows scale start next jobRows taskRows =
      .ok (jobs.map JobCells.job, dealt scale (submitted start jobs) next tasks
        (seats (jobs.map JobCells.id) (tasks.map TaskCells.job))) := by
  induction hjobs generalizing start next taskRows tasks with
  | nil =>
      obtain rfl := List.length_eq_zero_iff.mp hall.symm
      obtain rfl := List.forall₂_nil_right_iff.mp htasks
      rfl
  | @cons jobRow job jobRows jobs hjob _ ih =>
      have hlength := length_takeWhile_add (·.job = job.id) tasks
      have hleft := List.forall₂_drop
        (tasks.takeWhile (·.job = job.id)).length htasks
      rw [drop_length_takeWhile] at hleft
      rw [List.map_cons, seats_cons_map, List.length_append,
        List.length_replicate, List.length_map] at hall
      rw [joinRows_cons hjob htasks scale start next jobRows
        (submitted start (job :: jobs)) rfl,
        ih hleft (start + job.submission) _ (by omega), List.map_cons,
        List.map_cons, dealt_cons]
      rfl

theorem joinRows_stray {jobRows : List Row} {jobs : List (JobCells α)}
    (hjobs : List.Forall₂ Row.HoldsJob jobRows jobs) {taskRows : List Row}
    {tasks : List (TaskCells α)}
    (htasks : List.Forall₂ Row.HoldsTask taskRows tasks) (scale start : α)
    (next : Nat)
    (hfew : (seats (jobs.map JobCells.id) (tasks.map TaskCells.job)).length <
      tasks.length) :
    ∃ row text,
      taskRows[(seats (jobs.map JobCells.id)
        (tasks.map TaskCells.job)).length]? = some row ∧
      row.cell Column.taskJob.place = .ok text ∧
      joinRows scale start next jobRows taskRows = .error
        (.tasks, .row row.number (.strayTask (String.ofList text))) := by
  induction hjobs generalizing start next taskRows tasks with
  | nil =>
      cases htasks with
      | nil => exact absurd hfew (Nat.lt_irrefl 0)
      | @cons row cells rows tasks hrow hrows =>
          obtain ⟨text, hcell, -⟩ := bind_ok hrow.job_eq
          refine ⟨row, text, rfl, hcell, ?_⟩
          rw [joinRows, hcell]
          rfl
  | @cons jobRow job jobRows jobs hjob _ ih =>
      have hlength := length_takeWhile_add (·.job = job.id) tasks
      have hleft := List.forall₂_drop
        (tasks.takeWhile (·.job = job.id)).length htasks
      rw [drop_length_takeWhile] at hleft
      rw [List.map_cons, seats_cons_map, List.length_append,
        List.length_replicate, List.length_map] at hfew ⊢
      obtain ⟨row, text, hrow, hcell, hstray⟩ := ih hleft
        (start + job.submission)
        (next + (tasks.takeWhile (·.job = job.id)).length) (by omega)
      rw [List.getElem?_drop] at hrow
      refine ⟨row, text, hrow, hcell, ?_⟩
      rw [joinRows_cons hjob htasks scale start next jobRows
        (submitted start (job :: jobs)) rfl, hstray]
      rfl

/-! ## Loading -/

theorem number_of_readTable {directory : String} {table : DatasetTable}
    {content : Option ByteArray} {rows : List Row}
    (hread : readTable directory table content = .ok rows) {index : Nat}
    {row : Row} (hrow : rows[index]? = some row) : row.number = index + 2 := by
  unfold readTable at hread
  split at hread
  next => exact nomatch hread
  next =>
    split at hread
    next texts _ =>
      obtain rfl : Row.ofTable texts = rows := Except.ok.inj hread
      rw [Row.ofTable, List.getElem?_mapIdx, Option.map_eq_some_iff] at hrow
      obtain ⟨cells, _, rfl⟩ := hrow
      rfl
    next => exact nomatch hread

section

variable {plan : DatasetPlan α} {jobFile taskFile : Option ByteArray}
  {jobRows taskRows : List Row} {jobs : List (JobCells α)}
  {tasks : List (TaskCells α)}

theorem ofContents_of_splits
    (hjobFile : readTable plan.path .jobs jobFile = .ok jobRows)
    (htaskFile : readTable plan.path .tasks taskFile = .ok taskRows)
    (hjobs : List.Forall₂ Row.HoldsJob jobRows jobs)
    (htasks : List.Forall₂ Row.HoldsTask taskRows tasks)
    (hsplits : Splits (jobs.map JobCells.id) (tasks.map TaskCells.job)) :
    ofContents plan jobFile taskFile = .ok
      ⟨Location.displayName plan.path, jobs.map JobCells.job,
        dealt plan.runtimeScale (submitted Arith.zero jobs) 0 tasks
          (seats (jobs.map JobCells.id) (tasks.map TaskCells.job))⟩ := by
  rw [splits_iff, List.length_map] at hsplits
  rw [ofContents, hjobFile, htaskFile]
  dsimp only [bind, Except.bind]
  rw [joinRows_of_seats hjobs htasks plan.runtimeScale Arith.zero 0 hsplits]
  rfl

theorem ofContents_stray
    (hjobFile : readTable plan.path .jobs jobFile = .ok jobRows)
    (htaskFile : readTable plan.path .tasks taskFile = .ok taskRows)
    (hjobs : List.Forall₂ Row.HoldsJob jobRows jobs)
    (htasks : List.Forall₂ Row.HoldsTask taskRows tasks)
    (hsplits : ¬ Splits (jobs.map JobCells.id) (tasks.map TaskCells.job)) :
    ∃ row text,
      taskRows[(seats (jobs.map JobCells.id)
        (tasks.map TaskCells.job)).length]? = some row ∧
      row.cell Column.taskJob.place = .ok text ∧
      ofContents plan jobFile taskFile = .error
        (.dataset (Location.join plan.path DatasetTable.tasks.fileName)
          (.row row.number (.strayTask (String.ofList text)))) := by
  have hle := length_seats_le (jobs.map JobCells.id) (tasks.map TaskCells.job)
  rw [splits_iff] at hsplits
  rw [List.length_map] at hle hsplits
  obtain ⟨row, text, hrow, hcell, hstray⟩ := joinRows_stray hjobs htasks
    plan.runtimeScale Arith.zero 0 (Nat.lt_of_le_of_ne hle hsplits)
  refine ⟨row, text, hrow, hcell, ?_⟩
  rw [ofContents, hjobFile, htaskFile]
  dsimp only [bind, Except.bind]
  rw [hstray]

theorem splits_of_ofContents
    (hjobFile : readTable plan.path .jobs jobFile = .ok jobRows)
    (htaskFile : readTable plan.path .tasks taskFile = .ok taskRows)
    (hjobs : List.Forall₂ Row.HoldsJob jobRows jobs)
    (htasks : List.Forall₂ Row.HoldsTask taskRows tasks) {dataset : Dataset α}
    (hdataset : ofContents plan jobFile taskFile = .ok dataset) :
    Splits (jobs.map JobCells.id) (tasks.map TaskCells.job) := by
  by_contra hnot
  obtain ⟨row, text, -, -, hfault⟩ :=
    ofContents_stray hjobFile htaskFile hjobs htasks hnot
  rw [hdataset] at hfault
  exact nomatch hfault

/-- The tasks of joined tables are numbered by their rows, and each belongs to the
job row of its seat. -/
theorem tasks_of_ofContents
    (hjobFile : readTable plan.path .jobs jobFile = .ok jobRows)
    (htaskFile : readTable plan.path .tasks taskFile = .ok taskRows)
    (hjobs : List.Forall₂ Row.HoldsJob jobRows jobs)
    (htasks : List.Forall₂ Row.HoldsTask taskRows tasks) {dataset : Dataset α}
    (hdataset : ofContents plan jobFile taskFile = .ok dataset) :
    let ids := jobs.map JobCells.id
    let owners := tasks.map TaskCells.job
    dataset.jobs = jobs.map JobCells.job ∧
      dataset.tasks.length = taskRows.length ∧
      Seated ids 0 owners (seats ids owners) ∧
      ∀ (index row : Nat) (cells : TaskCells α),
        tasks[index]? = some cells → (seats ids owners)[index]? = some row →
          dataset.tasks[index]? = some (cells.task plan.runtimeScale
            (submitted Arith.zero jobs row) ⟨index⟩) := by
  intro ids owners
  have hall : Splits ids owners :=
    splits_of_ofContents hjobFile htaskFile hjobs htasks hdataset
  rw [ofContents_of_splits hjobFile htaskFile hjobs htasks hall,
    Except.ok.injEq] at hdataset
  subst hdataset
  have hlength := splits_iff.mp hall
  have hseated := seated_seats ids owners
  rw [hlength, List.take_length] at hseated
  rw [List.length_map] at hlength
  refine ⟨rfl, ?_, hseated, ?_⟩
  · rw [htasks.length_eq]
    exact length_dealt _ _ _ hlength
  · intro index row cells hcells hrow
    have htask := getElem?_dealt plan.runtimeScale
      (submitted Arith.zero jobs) 0 hcells hrow
    rwa [Nat.zero_add] at htask

end

namespace Sample

/-- Job rows with the ids 1, 2 and 1, ten seconds after each other. -/
def jobTable : String :=
  ",,,,,,,,,,,,,,,,,,,,,\n,1,,,,10,,,,,,,,,,,,,,1,,[]\n" ++
    ",2,,,,10,,,,,,,,,,,,,,1,,[]\n,1,,,,10,,,,,,,,,,,,,,1,,[]\n"

/-- Task rows of the jobs 1, 2 and 1. -/
def taskTable : String :=
  ",,,,,,,,,,,,,,,,,\n,1,1,5,1,1,,2,,50,,,,,,,,3\n" ++
    ",1,2,5,1,1,,2,,50,,,,,,,,3\n,1,1,5,1,1,,2,,50,,,,,,,,3\n"

def jobRow (number : Nat) (id : String) : Row :=
  ⟨number, ["", id, "", "", "", "10", "", "", "", "", "", "", "", "", "", "",
    "", "", "", "1", "", "[]"]⟩

def taskRow (number : Nat) (job : String) : Row :=
  ⟨number, ["", "1", job, "5", "1", "1", "", "2", "", "50", "", "", "", "", "",
    "", "", "3"]⟩

def jobCells (id : Nat) : JobCells ℚ := ⟨⟨id⟩, (10 : Nat), 1, []⟩

def taskCells (job : Nat) : TaskCells ℚ :=
  ⟨⟨job⟩, 1, { level := 3 }, (2 : Nat), (50 : Nat), (5 : Nat), (1 : Nat),
    (1 : Nat)⟩

theorem ofLiteral_whole (n : Nat) :
    (Arith.ofLiteral (.finite false n 0) : ℚ) = n := by
  simp [Arith.ofLiteral, Literal.exact]

theorem jobRow_holds (number : Nat) {id : String} {n : Nat}
    (hid : (jobRow number id).natural Column.jobId.place = .ok n) :
    (jobRow number id).HoldsJob (jobCells n) where
  id_eq := hid
  submission_eq := congrArg Except.ok (ofLiteral_whole 10)
  groups_eq := ⟨"[]".toList, rfl, rfl⟩
  maxParallel_eq := rfl

theorem taskRow_holds (number : Nat) {job : String} {n : Nat}
    (hjob : (taskRow number job).natural Column.taskJob.place = .ok n) :
    (taskRow number job).HoldsTask (taskCells n) where
  job_eq := hjob
  localId_eq := rfl
  priority_eq := rfl
  submission_eq := congrArg Except.ok (ofLiteral_whole 2)
  deadline_eq := congrArg Except.ok (ofLiteral_whole 50)
  length_eq := congrArg Except.ok (ofLiteral_whole 5)
  memory_eq := congrArg Except.ok (ofLiteral_whole 1)
  storage_eq := congrArg Except.ok (ofLiteral_whole 1)

end Sample

end Dataset
end FogDispatch
