import FastcgiContainer.StringBuffer

/-! `FileLogger`: messages are queued by the threads that log, and written by a thread of the
logger. What happens under the lock of the queue is one step; the flag that stops the thread
is read and set without it. -/

namespace FastcgiContainer

open Word (Bytes)

/-- Where the writing thread is: at the test of the flag, before the lock, on the condition,
notified and before it has the lock again, in the loop over the messages it took, or behind
its end. -/
inductive Writer where
  | testing
  | locking
  | waiting
  | woken
  | writing (queueCopy : List Bytes) (wrote : Nat)
  | returned
  deriving DecidableEq, Repr

inductive Destructor where
  | notStarted
  | stopped
  | notified
  | joined
  deriving DecidableEq, Repr

structure FileLogger where
  level : Nat
  stopping : Bool
  queue : List Bytes
  writer : Writer
  destructor : Destructor
  file : Bytes

namespace FileLogger

def create (level : Nat) : FileLogger := ⟨level, false, [], .testing, .notStarted, []⟩

/-- `notify_one`: only a thread that waits is woken. -/
def notifyOne (logger : FileLogger) : FileLogger :=
  if logger.writer = .waiting then { logger with writer := .woken } else logger

def accepts (logger : FileLogger) (level : Nat) (text : Bytes) : Bool :=
  !(level < logger.level) && !text.isEmpty

def log (logger : FileLogger) (level : Nat) (text : Bytes) : FileLogger :=
  if logger.accepts level text then { logger with queue := logger.queue ++ [text] }.notifyOne
  else logger

inductive Step where
  | log (level : Nat) (text : Bytes)
  | test
  | wait
  | wake
  | swap
  | write (res : Nat)
  | next
  | stop
  | notify
  | join
  deriving DecidableEq, Repr

/-- One step of a thread that logs, of the writing thread, or of the destructor; nothing, if
the thread is not there. A write may take a part of a message only, and a thread may wake
without having been notified. -/
def step (logger : FileLogger) : Step → Option FileLogger
  | .log level text => some (logger.log level text)
  | .test =>
      match logger.writer with
      | .testing => some { logger with writer := if logger.stopping then .returned else .locking }
      | _ => none
  | .wait =>
      match logger.writer with
      | .locking => some { logger with writer := .waiting }
      | _ => none
  | .wake =>
      match logger.writer with
      | .waiting => some { logger with writer := .woken }
      | _ => none
  | .swap =>
      match logger.writer with
      | .woken => some { logger with queue := [], writer := .writing logger.queue 0 }
      | _ => none
  | .write res =>
      match logger.writer with
      | .writing (i :: rest) wrote =>
          if wrote < i.length ∧ res ≤ i.length - wrote then
            some { logger with
              writer := .writing (i :: rest) (wrote + res)
              file := logger.file ++ (i.drop wrote).take res }
          else none
      | _ => none
  | .next =>
      match logger.writer with
      | .writing [] _ => some { logger with writer := .testing }
      | .writing (i :: rest) wrote =>
          if wrote < i.length then none else some { logger with writer := .writing rest 0 }
      | _ => none
  | .stop =>
      match logger.destructor with
      | .notStarted => some { logger with stopping := true, destructor := .stopped }
      | _ => none
  | .notify =>
      match logger.destructor with
      | .stopped => some { logger.notifyOne with destructor := .notified }
      | _ => none
  | .join =>
      match logger.destructor, logger.writer with
      | .notified, .returned => some { logger with destructor := .joined }
      | _, _ => none

def run (logger : FileLogger) : List Step → Option FileLogger
  | [] => some logger
  | step :: rest => (logger.step step).bind (fun next => next.run rest)

def queued (level : Nat) (steps : List Step) : List Bytes :=
  steps.filterMap (fun step =>
    match step with
    | .log priority text => if !(priority < level) && !text.isEmpty then some text else none
    | _ => none)

/-- The file has the messages of the first list, once and in their order, and behind them
some of the second. -/
def Written (file : Bytes) (before after : List Bytes) : Prop :=
  ∃ later, later <+: after ∧ file = (before ++ later).flatten

end FileLogger

def Writer.pending : Writer → Bytes
  | writing [] _ => []
  | writing (i :: rest) wrote => i.drop wrote ++ rest.flatten
  | _ => []

/-- The thread will take what is in the queue before it tests the flag again. -/
def Writer.takes : Writer → Bool
  | locking => true
  | waiting => true
  | woken => true
  | _ => false

namespace FileLogger

def taken (logger : FileLogger) : Bytes := logger.file ++ logger.writer.pending

inductive Moves (logger next : FileLogger) : List Bytes → Prop where
  | queues (text : Bytes) (filled : text ≠ []) (queue : next.queue = logger.queue ++ [text])
      (taken : next.taken = logger.taken) (takes : next.writer.takes = logger.writer.takes)
      (stopping : next.stopping = logger.stopping) : Moves logger next [text]
  | takes (queue : next.queue = []) (taken : next.taken = logger.taken ++ logger.queue.flatten)
      (before : logger.writer.takes = true) (stopping : next.stopping = logger.stopping) : Moves logger next []
  | rests (queue : next.queue = logger.queue) (taken : next.taken = logger.taken)
      (takes : next.writer.takes = logger.writer.takes ∨ next.writer.takes = true ∧ logger.stopping = false)
      (stopping : logger.stopping = true → next.stopping = true) : Moves logger next []

theorem notifyOne_moves (logger : FileLogger) :
    logger.notifyOne.queue = logger.queue ∧ logger.notifyOne.taken = logger.taken ∧
      logger.notifyOne.writer.takes = logger.writer.takes ∧
      logger.notifyOne.stopping = logger.stopping ∧ logger.notifyOne.level = logger.level := by
  unfold notifyOne
  split
  · next waits => simp [taken, waits, Writer.pending, Writer.takes]
  · simp

theorem log_moves (logger : FileLogger) (level : Nat) (text : Bytes) :
    Moves logger (logger.log level text) (queued logger.level [.log level text]) := by
  obtain ⟨queue, taken, takes, stopping, _⟩ :=
    notifyOne_moves { logger with queue := logger.queue ++ [text] }
  cases accepted : logger.accepts level text with
  | false =>
      have refused : (!(decide (level < logger.level)) && !text.isEmpty) = false := accepted
      simp only [log, accepted, queued, List.filterMap_cons, refused, Bool.false_eq_true, if_false,
        List.filterMap_nil]
      exact .rests rfl rfl (Or.inl rfl) (fun here => here)
  | true =>
      have kept : (!(decide (level < logger.level)) && !text.isEmpty) = true := accepted
      have filled : text ≠ [] := by
        intro none
        simp [none] at kept
      simp only [log, accepted, queued, List.filterMap_cons, kept, if_true, List.filterMap_nil]
      exact .queues text filled queue taken takes stopping

theorem log_level (logger : FileLogger) (level : Nat) (text : Bytes) :
    (logger.log level text).level = logger.level := by
  unfold log
  split
  · exact (notifyOne_moves _).2.2.2.2
  · rfl

theorem step_moves (logger next : FileLogger) (step : Step) (done : logger.step step = some next) :
    Moves logger next (queued logger.level [step]) ∧ next.level = logger.level := by
  cases step with
  | log level text =>
      cases done
      exact ⟨log_moves logger level text, log_level logger level text⟩
  | test =>
      simp only [FileLogger.step] at done
      cases place : logger.writer <;> rw [place] at done <;> cases done
      refine ⟨.rests rfl ?_ ?_ (fun here => here), rfl⟩
      · cases logger.stopping <;> simp [taken, place, Writer.pending]
      · cases logger.stopping <;> simp [place, Writer.takes]
  | wait =>
      simp only [FileLogger.step] at done
      cases place : logger.writer <;> rw [place] at done <;> cases done
      exact ⟨.rests rfl (by simp [taken, place, Writer.pending]) (Or.inl (by simp [place, Writer.takes]))
        (fun here => here), rfl⟩
  | wake =>
      simp only [FileLogger.step] at done
      cases place : logger.writer <;> rw [place] at done <;> cases done
      exact ⟨.rests rfl (by simp [taken, place, Writer.pending]) (Or.inl (by simp [place, Writer.takes]))
        (fun here => here), rfl⟩
  | swap =>
      simp only [FileLogger.step] at done
      cases place : logger.writer <;> rw [place] at done <;> cases done
      refine ⟨.takes rfl ?_ (by simp [place, Writer.takes]) rfl, rfl⟩
      cases logger.queue <;> simp [taken, place, Writer.pending]
  | write res =>
      simp only [FileLogger.step] at done
      split at done
      · next i rest wrote place =>
          split at done
          · cases done
            refine ⟨.rests rfl ?_ (Or.inl (by simp [place, Writer.takes])) (fun here => here), rfl⟩
            have split := List.take_append_drop res (i.drop wrote)
            rw [List.drop_drop] at split
            simp only [taken, place, Writer.pending, List.append_assoc]
            rw [← List.append_assoc _ _ rest.flatten, split]
          · cases done
      · cases done
  | next =>
      simp only [FileLogger.step] at done
      split at done
      · next wrote place =>
          cases done
          exact ⟨.rests rfl (by simp [taken, place, Writer.pending])
            (Or.inl (by simp [place, Writer.takes])) (fun here => here), rfl⟩
      · next i rest wrote place =>
          split at done
          · cases done
          · next ended =>
              cases done
              refine ⟨.rests rfl ?_ (Or.inl (by simp [place, Writer.takes])) (fun here => here), rfl⟩
              have whole : i.drop wrote = [] := List.drop_eq_nil_of_le (by omega)
              cases rest <;> simp [taken, place, Writer.pending, whole]
      · cases done
  | stop =>
      simp only [FileLogger.step] at done
      cases place : logger.destructor <;> rw [place] at done <;> cases done
      exact ⟨.rests rfl rfl (Or.inl rfl) (fun _ => rfl), rfl⟩
  | notify =>
      simp only [FileLogger.step] at done
      cases place : logger.destructor <;> rw [place] at done <;> cases done
      obtain ⟨queue, taken, takes, stopping, level⟩ := notifyOne_moves logger
      exact ⟨.rests queue taken (Or.inl takes) (fun here => by rw [← here]; exact stopping), level⟩
  | join =>
      simp only [FileLogger.step] at done
      split at done
      · cases done
        exact ⟨.rests rfl rfl (Or.inl rfl) (fun here => here), rfl⟩
      · cases done

def Accounts (logger : FileLogger) (messages : List Bytes) : Prop :=
  ∃ done, logger.taken = done.flatten ∧ done ++ logger.queue = messages

/-- Of the messages of two lists the thread has taken those of the first, or will yet. -/
def Serves (before after : List Bytes) (logger : FileLogger) : Prop :=
  ∃ done, logger.taken = done.flatten ∧ done ++ logger.queue = before ++ after ∧
    (logger.writer.takes = true ∨ before <+: done)

def Leaves (rest : Bytes) (logger : FileLogger) : Prop :=
  logger.stopping = true ∧ logger.writer.takes = false ∧ logger.taken = rest

section Moves

variable {logger next : FileLogger} {messages before after : List Bytes}

theorem Moves.accounts {earlier : List Bytes} (moves : Moves logger next messages)
    (accounts : Accounts logger earlier) : Accounts next (earlier ++ messages) := by
  obtain ⟨done, taken, whole⟩ := accounts
  cases moves with
  | queues text filled queue same takes stopping =>
      refine ⟨done, same.trans taken, ?_⟩
      rw [queue, ← whole, List.append_assoc]
  | takes queue grown held stopping =>
      refine ⟨done ++ logger.queue, ?_, ?_⟩
      · rw [grown, taken, List.flatten_append]
      · rw [queue, whole]
  | rests queue same takes stopping =>
      refine ⟨done, same.trans taken, ?_⟩
      rw [queue, whole, List.append_nil]

theorem Moves.serves (moves : Moves logger next messages) (stops : logger.stopping = true)
    (serves : Serves before after logger) : Serves before (after ++ messages) next := by
  obtain ⟨done, taken, whole, served⟩ := serves
  cases moves with
  | queues text filled queue same takes stopping =>
      refine ⟨done, same.trans taken, ?_, by rw [takes]; exact served⟩
      rw [queue, ← List.append_assoc, whole, List.append_assoc]
  | takes queue grown held stopping =>
      refine ⟨done ++ logger.queue, ?_, ?_, Or.inr ?_⟩
      · rw [grown, taken, List.flatten_append]
      · rw [queue, List.append_nil, List.append_nil, whole]
      · rw [whole]
        exact List.prefix_append before after
  | rests queue same takes stopping =>
      refine ⟨done, same.trans taken, ?_, ?_⟩
      · rw [queue, List.append_nil, whole]
      · rcases takes with takes | ⟨_, goesOn⟩
        · rw [takes]
          exact served
        · rw [goesOn] at stops
          cases stops

theorem Moves.leaves {rest : Bytes} (moves : Moves logger next messages) (leaves : Leaves rest logger) :
    Leaves rest next := by
  obtain ⟨stops, holds, taken⟩ := leaves
  cases moves with
  | queues text filled queue same takes stopping =>
      exact ⟨stopping.trans stops, takes.trans holds, same.trans taken⟩
  | takes queue grown held stopping =>
      rw [holds] at held
      cases held
  | rests queue same takes stopping =>
      refine ⟨stopping stops, ?_, same.trans taken⟩
      rcases takes with takes | ⟨_, goesOn⟩
      · exact takes.trans holds
      · rw [goesOn] at stops
        cases stops

theorem Moves.stops (moves : Moves logger next messages) (stops : logger.stopping = true) :
    next.stopping = true := by
  cases moves with
  | queues text filled queue same takes stopping => exact stopping.trans stops
  | takes queue grown held stopping => exact stopping.trans stops
  | rests queue same takes stopping => exact stopping stops

end Moves

theorem queued_cons (level : Nat) (step : Step) (rest : List Step) :
    queued level (step :: rest) = queued level [step] ++ queued level rest := by
  rw [← List.singleton_append, queued, List.filterMap_append]
  rfl

theorem queued_filled (level : Nat) (steps : List Step) : ∀ text ∈ queued level steps, text ≠ [] := by
  intro text member
  obtain ⟨step, _, found⟩ := List.mem_filterMap.mp member
  cases step with
  | log priority text =>
      simp only [Option.ite_none_right_eq_some, Option.some.injEq] at found
      obtain ⟨kept, rfl⟩ := found
      intro none
      simp [none] at kept
  | _ => cases found

/-- A property of a logger and the messages queued so far that every step keeps is kept by
every run. -/
theorem run_keeps (holds : FileLogger → List Bytes → Prop)
    (keeps : ∀ logger next messages added, Moves logger next added → holds logger messages →
      holds next (messages ++ added))
    (steps : List Step) (logger final : FileLogger) (messages : List Bytes) (here : holds logger messages)
    (done : logger.run steps = some final) : holds final (messages ++ queued logger.level steps) := by
  induction steps generalizing logger messages with
  | nil =>
      cases done
      simpa [queued] using here
  | cons step rest ih =>
      obtain ⟨next, stepped, later⟩ := Option.bind_eq_some_iff.mp done
      obtain ⟨moves, level⟩ := step_moves logger next step stepped
      have kept := ih next (messages ++ queued logger.level [step]) (keeps _ _ _ _ moves here) later
      rw [level, List.append_assoc, ← queued_cons] at kept
      exact kept

theorem run_level (steps : List Step) (logger final : FileLogger) (done : logger.run steps = some final) :
    final.level = logger.level := by
  induction steps generalizing logger with
  | nil =>
      cases done
      rfl
  | cons step rest ih =>
      obtain ⟨next, stepped, later⟩ := Option.bind_eq_some_iff.mp done
      exact (ih next later).trans (step_moves logger next step stepped).2

theorem run_append (first second : List Step) (logger final : FileLogger)
    (done : logger.run (first ++ second) = some final) :
    ∃ middle, logger.run first = some middle ∧ middle.run second = some final := by
  induction first generalizing logger with
  | nil => exact ⟨logger, rfl, done⟩
  | cons step rest ih =>
      obtain ⟨next, stepped, later⟩ := Option.bind_eq_some_iff.mp done
      obtain ⟨middle, ran, ends⟩ := ih next later
      exact ⟨middle, Option.bind_eq_some_iff.mpr ⟨next, stepped, ran⟩, ends⟩

theorem join_returned (logger final : FileLogger) (done : logger.step .join = some final) :
    logger.writer = .returned ∧ final.file = logger.file := by
  simp only [step] at done
  split at done
  · next _ place =>
      cases done
      exact ⟨place, rfl⟩
  · cases done

theorem stop_eq (logger next : FileLogger) (done : logger.step .stop = some next) :
    next = { logger with stopping := true, destructor := .stopped } := by
  simp only [step] at done
  split at done
  · cases done
    rfl
  · cases done

theorem taken_returned (logger : FileLogger) (ended : logger.writer = .returned) :
    logger.taken = logger.file := by
  simp [taken, ended, Writer.pending]

theorem Written.length {file : Bytes} {before after : List Bytes} (written : Written file before after) :
    before.flatten.length ≤ file.length := by
  obtain ⟨later, _, rfl⟩ := written
  rw [List.flatten_append, List.length_append]
  exact Nat.le_add_right _ _

theorem run_accounts (level : Nat) (steps : List Step) (logger : FileLogger)
    (reached : (create level).run steps = some logger) : Accounts logger (queued level steps) :=
  run_keeps Accounts (fun _ _ _ _ moves => moves.accounts) steps (create level) logger []
    ⟨[], rfl, rfl⟩ reached

section Shutdown

variable {level : Nat} {before after : List Step} {stopped started last : FileLogger}
  (reached : (create level).run before = some stopped)
  (begins : stopped.step .stop = some started) (ran : started.run after = some last)
  (ended : last.writer = .returned)

include reached begins ran ended

theorem file_written (served : stopped.queue = [] ∨ stopped.writer.takes = true) :
    Written last.file (queued level before) (queued level after) := by
  obtain ⟨done, taken, whole⟩ := run_accounts level before stopped reached
  have same := stop_eq stopped started begins
  have serves : started.stopping = true ∧ Serves (queued level before) [] started := by
    subst same
    refine ⟨rfl, done, taken, ?_, ?_⟩
    · rw [List.append_nil]
      exact whole
    · rcases served with none | takes
      · rw [none, List.append_nil] at whole
        exact Or.inr (whole ▸ List.prefix_refl done)
      · exact Or.inl takes
  have kept := run_keeps (fun logger messages => logger.stopping = true ∧ Serves (queued level before) messages logger)
    (fun _ _ _ _ moves here => ⟨moves.stops here.1, moves.serves here.1 here.2⟩) after started last [] serves ran
  have threshold : started.level = level := by
    rw [same]
    exact run_level before (create level) stopped reached
  obtain ⟨_, final, took, all, done⟩ := kept
  rw [List.nil_append, threshold] at all
  rcases done with takes | ⟨later, rfl⟩
  · rw [ended] at takes
    cases takes
  · refine ⟨later, ⟨last.queue, ?_⟩, ?_⟩
    · rw [List.append_assoc] at all
      exact List.append_cancel_left all
    · rw [← took, taken_returned last ended]

theorem file_short (left : stopped.queue ≠ []) (leaves : stopped.writer.takes = false) :
    ¬Written last.file (queued level before) (queued level after) := by
  intro written
  obtain ⟨done, taken, whole⟩ := run_accounts level before stopped reached
  have same := stop_eq stopped started begins
  have starts : Leaves done.flatten started := by
    subst same
    exact ⟨rfl, leaves, taken⟩
  have kept := run_keeps (fun logger _ => Leaves done.flatten logger) (fun _ _ _ _ moves here => moves.leaves here)
    after started last [] starts ran
  have short : last.file = done.flatten := by
    rw [← taken_returned last ended]
    exact kept.2.2
  have missing : 0 < stopped.queue.flatten.length := by
    obtain ⟨text, others, first⟩ := List.exists_cons_of_ne_nil left
    have member : text ∈ queued level before := by
      rw [← List.nil_append (queued level before)]
      exact whole ▸ List.mem_append_right done (first ▸ List.mem_cons_self)
    have filled := List.length_pos_of_ne_nil (queued_filled level before text member)
    rw [first, List.flatten_cons, List.length_append]
    omega
  have enough := written.length
  have total : (queued level before).flatten = done.flatten ++ stopped.queue.flatten := by
    rw [← List.flatten_append, whole]
  rw [total, List.length_append, short] at enough
  omega

end Shutdown

/-- When the destructor's join returns, the file has all messages that were queued before it
began, once and in their order, exactly if then the queue was empty or the thread was between
its test of the flag and the exchange of the queue. In its loop over the messages, or at the
test, it leaves without those that were queued meanwhile. -/
theorem shutdown_writes_queue_iff (level : Nat) (before after : List Step) (stopped final : FileLogger)
    (reached : (create level).run before = some stopped)
    (ended : stopped.run (.stop :: (after ++ [.join])) = some final) :
    Written final.file (queued level before) (queued level after) ↔
      stopped.queue = [] ∨ stopped.writer.takes = true := by
  obtain ⟨started, begins, later⟩ := Option.bind_eq_some_iff.mp ended
  obtain ⟨last, ran, joins⟩ := run_append after [.join] started final later
  obtain ⟨joined, join, whole⟩ := Option.bind_eq_some_iff.mp joins
  obtain rfl : joined = final := Option.some.inj whole
  obtain ⟨place, same⟩ := join_returned last joined join
  rw [same]
  constructor
  · intro written
    by_contra unserved
    rw [not_or, Bool.not_eq_true] at unserved
    exact file_short reached begins ran place unserved.1 unserved.2 written
  · exact file_written reached begins ran place

/-- The logger is stopped while its thread waits. -/
theorem shutdown_writes_queue_iff_waiting :
    ∃ stopped final, (create 0).run [.test, .wait, .log 1 [97]] = some stopped ∧
      stopped.run (.stop :: ([.notify, .swap, .write 1, .next, .next, .test] ++ [.join])) = some final ∧
      Written final.file [[97]] [] := by
  refine ⟨_, _, rfl, rfl, ?_⟩
  exact (shutdown_writes_queue_iff 0 [.test, .wait, .log 1 [97]]
    [.notify, .swap, .write 1, .next, .next, .test] _ _ rfl rfl).mpr (Or.inr rfl)

/-- A second message is queued while the first is written, and then the logger is stopped. -/
theorem message_is_lost :
    ∃ stopped final, (create 0).run [.test, .wait, .log 1 [97], .swap, .log 1 [98]] = some stopped ∧
      stopped.run [.stop, .notify, .write 1, .next, .next, .test, .join] = some final ∧
      final.file = [97] ∧ ¬Written final.file [[97], [98]] [] := by
  refine ⟨_, _, rfl, rfl, rfl, ?_⟩
  intro written
  have length := written.length
  exact absurd length (by decide)

end FileLogger

end FastcgiContainer
