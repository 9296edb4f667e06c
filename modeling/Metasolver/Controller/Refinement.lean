import Metasolver.Controller.WorkConservation
import Metasolver.Lib.JobBoard

/-!
# The controller is a job board

The islands are the clients of a job board, a request is a job.  `Depicts` reads a
board off the members of the controller: the crew are the connected workers, a worker
works on the island it is recorded for, and the jobs are the requests in the two maps,
with those a handler has in hand.

In an orderly run in which islands wait for their results the log is, entry by entry,
a history of that board (`controller_refines_board`), and between two messages the
board is greedy.  So whenever the workers that are connected hold no allocation, every
request has been answered (`all_answered_at_rest`).
-/

namespace Metasolver

open Exec JobBoard

variable {β Algo Pop : Type} {archive : Archive β Algo Pop} {env : Surroundings}

abbrev WorkBoard (β : Type) := Board IslandId WorkerId β

/-- What an entry of the log shows of the board.  A result is shown when it is passed on. -/
def Log.shows : Action β → Option (Act IslandId WorkerId β)
  | .received (.fromWorker w .workerJoin) => some (.arrive w)
  | .received (.fromWorker w .workerLeave) => some (.depart w)
  | .received (.fromIsland i (.allocateWork workData)) => some (.post i workData)
  | .sent (.toWorker w (.allocateWork workData)) => some (.assign w workData)
  | .sent (.toIsland i _) => some (.finish i)
  | _ => none

def Log.acts (log : Log β) : List (Act IslandId WorkerId β) := log.filterMap Log.shows

theorem Log.acts_snoc {log : Log β} {a : Action β} :
    Log.acts (log ++ [a]) = log.acts ++ (Log.shows a).toList := by
  cases h : Log.shows a <;> simp [Log.acts, h]

namespace Controller

variable {c c' : Controller β} {i : IslandId} {d : β} {w : WorkerId} {log base : Log β}
  {b b' : WorkBoard β} {hand hand' : Multiset (IslandId × β)}

/-- The board of a controller whose handler has some requests in hand. -/
structure Depicts (hand : Multiset (IslandId × β)) (b : WorkBoard β) (c : Controller β) :
    Prop where
  crew : ∀ w, w ∈ b.crew ↔ w ∈ c.workerInfo.connectedWorkers
  worksOn : ∀ w, b.worksOn w = (c.workAllocationMap.lookup w).map WorkAllocationRecord.islandId
  job : ∀ i d, b.job i = some d ↔ (i, d) ∈ hand + records c
  distinct : ((hand + records c).map Prod.fst).Nodup

/-- A request that is in hand is in neither map. -/
theorem notRecorded_of_distinct
    (distinct : (((i, d) ::ₘ records c).map Prod.fst).Nodup) : NotRecorded c i := by
  rw [Multiset.map_cons, Multiset.nodup_cons] at distinct
  constructor
  · intro waiting
    obtain ⟨d', found⟩ := Finmap.mem_iff.mp waiting
    exact distinct.1 (Multiset.mem_map.mpr ⟨(i, d'), mem_records_of_waiting found, rfl⟩)
  · rintro v r busy rfl
    exact distinct.1 (Multiset.mem_map.mpr ⟨_, mem_records_of_busy busy, rfl⟩)

theorem NotRecorded.notMem_records (fresh : NotRecorded c i) : (i, d) ∉ records c := by
  intro member
  rcases Multiset.mem_add.mp member with waiting | busy
  · exact fresh.1 (Finmap.mem_of_lookup_eq_some (UnorderedMap.mem_bag.mp waiting))
  · obtain ⟨⟨v, r⟩, held, same⟩ := Multiset.mem_map.mp busy
    exact fresh.2 v r (UnorderedMap.mem_bag.mp held) (Prod.mk.inj same).1

namespace Depicts

/-- Requests have moved between the hand and the maps, and nobody's work has changed. -/
theorem move (h : Depicts hand b c)
    (hw : c'.workerInfo.connectedWorkers = c.workerInfo.connectedWorkers)
    (ha : c'.workAllocationMap = c.workAllocationMap)
    (hr : hand' + records c' = hand + records c) : Depicts hand' b c' where
  crew := by rw [hw]; exact h.crew
  worksOn := by rw [ha]; exact h.worksOn
  job := by rw [hr]; exact h.job
  distinct := by rw [hr]; exact h.distinct

theorem start (records : UnorderedMap WorkerId WorkerInfo) :
    Depicts 0 Board.empty (Controller.start records : Controller β) where
  crew w := by simp [Board.empty, Controller.start]
  worksOn w := by simp [Board.empty, Controller.start]
  job i d := by simp [Board.empty, Controller.start, Controller.records]
  distinct := by simp [Controller.start, Controller.records]

/-- A worker that stops is recorded for nothing. -/
theorem worksOn_cleared (h : Depicts hand b c) (v : WorkerId) :
    Function.update b.worksOn w none v =
      ((c.workAllocationMap.erase w).lookup v).map WorkAllocationRecord.islandId := by
  by_cases same : v = w
  · subst same
    rw [Function.update_self, Finmap.lookup_erase]
    rfl
  · rw [Function.update_of_ne same, Finmap.lookup_erase_ne same, h.worksOn]

theorem arrive (h : Depicts 0 b c) : Depicts 0 (b.arrive w) (c.joined w) where
  crew v := by
    change v ∈ insert w b.crew ↔ v ∈ insert w c.workerInfo.connectedWorkers
    rw [Set.mem_insert_iff, Finset.mem_insert, h.crew]
  worksOn := h.worksOn
  job := h.job
  distinct := h.distinct

/-- A worker leaves and what it worked on is in hand. -/
theorem depart (h : Depicts 0 b c) (kept : hand + records ((c.left w).cleared w) = records c) :
    Depicts hand (b.depart w) ((c.left w).cleared w) where
  crew v := by
    change v ∈ b.crew \ {w} ↔ v ∈ c.workerInfo.connectedWorkers.erase w
    rw [Set.mem_sdiff, Set.mem_singleton_iff, Finset.mem_erase, h.crew]
    exact and_comm
  worksOn v := h.worksOn_cleared v
  job := by rw [kept, ← zero_add (records c)]; exact h.job
  distinct := by rw [kept, ← zero_add (records c)]; exact h.distinct

/-- A new request is in hand. -/
theorem post (h : Depicts 0 b c) (fresh : NotRecorded c i) :
    Depicts {(i, d)} (b.post i d) c where
  crew := h.crew
  worksOn := h.worksOn
  job j d' := by
    change Function.update b.job i (some d) j = some d' ↔ _
    rw [Multiset.singleton_add, Multiset.mem_cons]
    by_cases same : j = i
    · subst same
      rw [Function.update_self, Option.some.injEq]
      constructor
      · rintro rfl
        exact Or.inl rfl
      · rintro (same | recorded)
        · exact (Prod.mk.inj same).2.symm
        · exact absurd recorded fresh.notMem_records
    · rw [Function.update_of_ne same, h.job, zero_add]
      constructor
      · exact Or.inr
      · rintro (same' | recorded)
        · exact absurd (Prod.mk.inj same').1 same
        · exact recorded
  distinct := by
    have distinct := h.distinct
    rw [zero_add] at distinct
    rw [Multiset.singleton_add, Multiset.map_cons, Multiset.nodup_cons]
    refine ⟨?_, distinct⟩
    intro again
    obtain ⟨⟨j, d'⟩, recorded, rfl⟩ := Multiset.mem_map.mp again
    exact fresh.notMem_records recorded

/-- The request in hand is given to a free worker. -/
theorem assign {repo : WorkerInfoRepository} (h : Depicts {(i, d)} b c) (partition : Partition c)
    (free : w ∈ c.freeWorkersPool)
    (started : c.workerInfo.workerStartedWork w env.startTime = .ok repo) :
    ∃ b', Board.Step b (.assign w d) b' ∧ Depicts 0 b' (c.allocated w i d repo) := by
  obtain ⟨-, connected, -⟩ := WorkerInfoRepository.modifyRecord_ok started
  have notBusy := partition.freeNotBusy w free
  have idle : b.Idle w := by
    refine ⟨(h.crew w).mpr ((partition.cover w).mpr (Or.inl free)), ?_⟩
    rw [h.worksOn, Finmap.lookup_eq_none.mpr notBusy]
    rfl
  have its : b.job i = some d := (h.job i d).mpr (Multiset.mem_cons_self _ _)
  have waiting : b.Waiting i := by
    refine ⟨by simp [its], ?_⟩
    intro v works
    rw [h.worksOn] at works
    obtain ⟨r, busy, same⟩ := Option.map_eq_some_iff.mp works
    exact (notRecorded_of_distinct h.distinct).2 v r busy same
  have moved : 0 + records (c.allocated w i d repo) = {(i, d)} + records c := by
    rw [zero_add, records_allocated notBusy, Multiset.singleton_add]
  refine ⟨_, .assign b w i d idle waiting its, ?_⟩
  constructor
  · intro v
    change v ∈ b.crew ↔ v ∈ repo.connectedWorkers
    rw [connected, h.crew]
  · intro v
    change Function.update b.worksOn w (some i) v =
      ((UnorderedMap.emplace w ⟨i, d⟩ c.workAllocationMap).lookup v).map _
    rw [UnorderedMap.emplace_of_notMem notBusy]
    by_cases same : v = w
    · subst same
      rw [Function.update_self, Finmap.lookup_insert]
      rfl
    · rw [Function.update_of_ne same, Finmap.lookup_insert_of_ne _ same, h.worksOn]
  · rw [moved]
    exact h.job
  · rw [moved]
    exact h.distinct

/-- The results of a worker finish the request it is recorded for. -/
theorem finish {r : WorkAllocationRecord β} {binary : β} {repo : WorkerInfoRepository}
    (h : Depicts 0 b c) (busy : c.workAllocationMap.lookup w = some r)
    (connected : repo.connectedWorkers = c.workerInfo.connectedWorkers) :
    ∃ b', Board.Step b (.finish r.islandId) b' ∧
      Depicts 0 b' (c.answered w r.islandId binary repo) := by
  have working : b.worksOn w = some r.islandId := by
    rw [h.worksOn, busy]
    rfl
  have distinct := h.distinct
  rw [zero_add, records_cleared busy] at distinct
  have gone := notRecorded_of_distinct distinct
  refine ⟨_, .finish b w r.islandId working, ?_⟩
  constructor
  · intro v
    change v ∈ b.crew ↔ v ∈ repo.connectedWorkers
    rw [connected, h.crew]
  · intro v
    exact h.worksOn_cleared v
  · intro j d
    change Function.update b.job r.islandId none j = some d ↔ (j, d) ∈ 0 + records (c.cleared w)
    by_cases same : j = r.islandId
    · subst same
      rw [Function.update_self, zero_add]
      exact iff_of_false (by simp) gone.notMem_records
    · rw [Function.update_of_ne same, h.job, zero_add, zero_add, records_cleared busy,
        Multiset.mem_cons]
      constructor
      · rintro (same' | recorded)
        · exact absurd (Prod.mk.inj same').1 same
        · exact recorded
      · exact Or.inr
  · change ((0 + records (c.cleared w)).map Prod.fst).Nodup
    rw [Multiset.map_cons, Multiset.nodup_cons] at distinct
    rw [zero_add]
    exact distinct.2

/-- With no idle worker while an island waits, the board is greedy. -/
theorem greedy (h : Depicts 0 b c) (partition : Partition c) (idle : NoIdle c) : b.Greedy := by
  intro w i ⟨here, works⟩ ⟨posted, nobody⟩
  rw [h.worksOn, Option.map_eq_none_iff, Finmap.lookup_eq_none] at works
  have free : w ∈ c.freeWorkersPool := by
    rcases (partition.cover w).mp ((h.crew w).mp here) with free | busy | limbo
    · exact free
    · exact absurd busy works
    · simp at limbo
  have noneWaiting : c.islandsWaitingForAlloc = ∅ :=
    idle.resolve_left (Finset.ne_empty_of_mem free)
  obtain ⟨d, its⟩ := Option.ne_none_iff_exists'.mp posted
  rw [h.job, zero_add] at its
  rcases Multiset.mem_add.mp its with waiting | busy
  · rw [noneWaiting] at waiting
    simp at waiting
  · obtain ⟨⟨v, r⟩, held, same⟩ := Multiset.mem_map.mp busy
    apply nobody v
    rw [h.worksOn, UnorderedMap.mem_bag.mp held]
    exact congrArg some (Prod.mk.inj same).1

end Depicts

/-- The log is a history of the board of the controller. -/
def Shown (hand : Multiset (IslandId × β)) (log : Log β) (c : Controller β) : Prop :=
  ∃ b, Board.Run Board.empty log.acts b ∧ Depicts hand b c

namespace Shown

/-- One more entry of the log shows one more act. -/
theorem next {a : Action β} {act : Act IslandId WorkerId β} (shows : Log.shows a = some act)
    (before : Board.Run Board.empty log.acts b) (step : Board.Step b act b')
    (depicts : Depicts hand b' c) : Shown hand (log ++ [a]) c := by
  refine ⟨b', ?_, depicts⟩
  rw [Log.acts_snoc, shows]
  exact .snoc before step

/-- One more entry of the log shows nothing. -/
theorem silent {a : Action β} (nothing : Log.shows a = none) (shown : Shown hand log c) :
    Shown hand (log ++ [a]) c := by
  obtain ⟨b, run, depicts⟩ := shown
  refine ⟨b, ?_, depicts⟩
  rw [Log.acts_snoc, nothing]
  simpa using run

theorem move (shown : Shown hand log c)
    (hw : c'.workerInfo.connectedWorkers = c.workerInfo.connectedWorkers)
    (ha : c'.workAllocationMap = c.workAllocationMap)
    (hr : hand' + records c' = hand + records c) : Shown hand' log c' := by
  obtain ⟨b, run, depicts⟩ := shown
  exact ⟨b, run, depicts.move hw ha hr⟩

theorem allocates (h : Allocates archive env i d c c') (partition : Partition c)
    (shown : Shown {(i, d)} (trail base c) c) : Shown 0 (trail base c') c' := by
  obtain ⟨w, repo, ⟨wct, -, chosen⟩, started⟩ := h
  obtain ⟨b, run, depicts⟩ := shown
  obtain ⟨b', step, depicts'⟩ := depicts.assign partition (mem_of_chooseWorker chosen) started
  rw [trail_allocated]
  exact next rfl run step depicts'

/-- The request in hand is queued or given to a worker. -/
theorem places (h : Places archive env i d c c') (partition : Partition c)
    (shown : Shown {(i, d)} (trail base c) c) : Shown 0 (trail base c') c' := by
  cases h with
  | queue noneFree =>
      have fresh : i ∉ c.islandsWaitingForAlloc := by
        obtain ⟨b, -, depicts⟩ := shown
        exact (notRecorded_of_distinct depicts.distinct).1
      refine shown.move rfl rfl ?_
      rw [records_queued fresh, zero_add, Multiset.singleton_add]
  | allocate someFree c' h => exact allocates h partition shown

/-- A worker that is freed takes a waiting request in hand. -/
theorem frees (h : Frees archive env w c c') (partition : PartitionWith {w} c)
    (shown : Shown 0 (trail base c) c) : Shown 0 (trail base c') c' := by
  cases h with
  | release => exact shown.move rfl rfl rfl
  | serve i d waiting c' h =>
      have popped : Partition ((c.released w).popped i) := partition.released.congr rfl rfl rfl
      have taken : records c = (i, d) ::ₘ records (c.popped i) := records_popped waiting
      apply allocates h popped
      refine shown.move rfl rfl ?_
      rw [zero_add, taken]
      rfl

/-- The log of one message goes on with the history of the board. -/
theorem handled {msg : Incoming β} (h : Handled archive env c msg c') (quiet : c.sent = [])
    (alternates : Alternates c.workerInfo.connectedWorkers msg) (partition : Partition c)
    (fresh : ∀ i d, msg = .fromIsland i (.allocateWork d) → NotRecorded c i)
    (shown : Shown 0 log c) : Shown 0 (Session.record log msg c') c' := by
  have before : ∀ base : Log β, trail base c = base := fun base => trail_quiet quiet
  change Shown 0 (trail (log ++ [.received msg]) c') c'
  cases h with
  | joinKnown w known => exact absurd ((partition.cover w).mpr (Or.inl known)) alternates
  | join w unknown c' h =>
      refine frees h (partition.joined alternates) ?_
      rw [show trail _ (c.joined w) = _ from before _]
      obtain ⟨b, run, depicts⟩ := shown
      have away : w ∉ b.crew := by
        rw [depicts.crew]
        exact alternates
      exact next rfl run (.arrive b w away) depicts.arrive
  | leaveIdle w idle =>
      rw [show trail _ (c.left w) = _ from before _]
      obtain ⟨b, run, depicts⟩ := shown
      have here : w ∈ b.crew := (depicts.crew w).mpr alternates
      have unchanged := UnorderedMap.erase_of_lookup_none idle
      have same : (c.left w).cleared w = c.left w := by
        simp only [cleared, left, unchanged]
      have depicts' : Depicts 0 (b.depart w) ((c.left w).cleared w) := by
        apply depicts.depart
        rw [same, zero_add]
        rfl
      rw [same] at depicts'
      exact next rfl run (.depart b w here) depicts'
  | leaveBusy w record busy c' h =>
      refine places h partition.leave ?_
      rw [show trail _ ((c.left w).cleared w) = _ from before _]
      obtain ⟨b, run, depicts⟩ := shown
      have here : w ∈ b.crew := (depicts.crew w).mpr alternates
      have depicts' : Depicts {(record.islandId, record.workData)} (b.depart w)
          ((c.left w).cleared w) := by
        apply depicts.depart
        rw [records_cleared busy, Multiset.singleton_add]
        rfl
      exact next rfl run (.depart b w here) depicts'
  | results w binary wct repo record readable finished busy c' h =>
      refine frees h (partition.answered busy finished) ?_
      rw [trail_answered, before]
      obtain ⟨-, connected, -⟩ := WorkerInfoRepository.modifyRecord_ok finished
      obtain ⟨b, run, depicts⟩ : Shown 0
          (log ++ [.received (.fromWorker w (.workResults binary))]) c := shown.silent rfl
      obtain ⟨b', step, depicts'⟩ := depicts.finish busy connected
      exact next rfl run step depicts'
  | getDll w binary reply =>
      rw [trail_send, before]
      have received : Shown 0 (log ++ [.received (.fromWorker w (.getDll binary))]) c :=
        shown.silent rfl
      exact (received.silent rfl).move rfl rfl rfl
  | request i d c' h =>
      refine places h partition ?_
      rw [before]
      have new := fresh i d rfl
      obtain ⟨b, run, depicts⟩ := shown
      have closed : b.job i = none := by
        rw [Option.eq_none_iff_forall_ne_some]
        intro d' posted
        rw [depicts.job, zero_add] at posted
        exact new.notMem_records posted
      exact next rfl run (.post b i d closed) (depicts.post new)
  | unhandledWorker =>
      rw [before]
      exact shown.silent rfl
  | unhandledIsland =>
      rw [before]
      exact shown.silent rfl

end Shown

end Controller

/-! ## Runs -/

/-- What holds between two messages of an orderly run in which islands wait. -/
structure BoardState (archive : Archive β Algo Pop) (s : Session β) (c : Controller β) :
    Prop where
  orderly : OrderlyState archive s c
  ledger : Controller.Ledger s.log c
  noIdle : c.NoIdle
  shown : Controller.Shown 0 s.log c

theorem BoardState.start (archive : Archive β Algo Pop)
    (records : UnorderedMap WorkerId WorkerInfo) :
    BoardState archive (Session.start records) (Controller.start records) where
  orderly := .start archive records
  ledger := .start records
  noIdle := Or.inl rfl
  shown := ⟨Board.empty, .nil, .start records⟩

theorem BoardState.step {s : Session β} {e : Delivery β} {c : Controller β}
    (state : BoardState archive s c) (ok : OrderlyAndSolicited archive s e) :
    ∃ c', BoardState archive ⟨.running c', Session.record s.log e.msg c'⟩ c' ∧
      (Session.step archive s e = some ⟨.running c', Session.record s.log e.msg c'⟩ ∨
        ∃ t, Halts archive s e c c' t) := by
  obtain ⟨c', handled, next, balanced, step⟩ := state.orderly.step_solicited state.ledger ok
  have alternates := ok.1.1
  rw [state.orderly.tracks.connected] at alternates
  have noIdle : Controller.NoIdle { c with sent := [] } := state.noIdle
  have shown : Controller.Shown 0 s.log { c with sent := [] } := state.shown.move rfl rfl rfl
  have fresh := state.ledger.quiet.notRecorded ok.2
  refine ⟨c', ⟨next, balanced, noIdle.handled handled, ?_⟩, step⟩
  exact shown.handled handled rfl alternates state.orderly.partition.quiet fresh

theorem board_of_running {records : UnorderedMap WorkerId WorkerInfo} {es : List (Delivery β)}
    {c : Controller β} {log : Log β}
    (orderly : Along (Session.step archive) (OrderlyAndSolicited archive) (Session.start records)
      es)
    (run : exec (Session.step archive) (Session.start records) es = some ⟨.running c, log⟩) :
    BoardState archive ⟨.running c, log⟩ c := by
  refine Session.running_invariant (I := BoardState archive) ?_ rfl (.start archive records)
    orderly run rfl
  intro s e t c c' state ok step running
  obtain ⟨c₁, next, goesOn | ⟨u, halts⟩⟩ := state.step ok
  · obtain rfl := Option.some.inj (step.symm.trans goesOn)
    obtain rfl := Server.running.inj running
    exact next
  · exact absurd running (halts.not_running step)

/-- The message has stopped the server by a save or a lookup that throws, and the log up to
    there is a history. -/
def StoppedOnBoard (archive : Archive β Algo Pop) (e : Delivery β) (t : Session β) : Prop :=
  ¬Controller.Undisturbed archive e.env e.msg ∧
    ∃ f c b, t.server = .stopped f c ∧ Board.Run Board.empty t.log.acts b

theorem BoardState.stopped {s t : Session β} {e : Delivery β} {c calm : Controller β}
    (next : BoardState archive ⟨.running calm, Session.record s.log e.msg calm⟩ calm)
    (halts : Halts archive s e c calm t) : StoppedOnBoard archive e t := by
  obtain ⟨x, c', rfl, interrupted⟩ := halts.stopped
  obtain ⟨rest, whole⟩ := Session.record_interrupted interrupted rfl s.log
  obtain ⟨b, history, -⟩ := next.shown
  have longer : Board.Run Board.empty (Session.record s.log e.msg calm).acts b := history
  rw [← whole, Log.acts, List.filterMap_append] at longer
  obtain ⟨b', shorter⟩ := longer.of_append
  exact ⟨halts.disturbed, _, c', b', rfl, shorter⟩

theorem board_run {records : UnorderedMap WorkerId WorkerInfo} {es : List (Delivery β)}
    (orderly : Along (Session.step archive) (OrderlyAndSolicited archive) (Session.start records)
      es) :
    (∃ s, exec (Session.step archive) (Session.start records) es = some s ∧
      ∃ c, BoardState archive s c) ∨
    ∃ before e after t, es = before ++ e :: after ∧
      exec (Session.step archive) (Session.start records) (before ++ [e]) = some t ∧
      StoppedOnBoard archive e t := by
  refine exec_until (I := fun s => ∃ c, BoardState archive s c) ?_
    ⟨_, BoardState.start archive records⟩ orderly
  intro s e ⟨c, state⟩ ok
  obtain ⟨c', next, step | ⟨t, halts⟩⟩ := state.step ok
  · exact ⟨_, step, Or.inl ⟨c', next⟩⟩
  · exact ⟨t, halts.step, Or.inr (next.stopped halts)⟩

/-- In every orderly run in which islands wait for their results, the log is a history
    of a greedy job board: the workers that are connected, the requests that are not
    answered, and the worker each of them is with.  If a save of the settings or a lookup
    that throws stops the server, the log up to there is a history. -/
theorem controller_refines_board (archive : Archive β Algo Pop)
    (records : UnorderedMap WorkerId WorkerInfo) (es : List (Delivery β))
    (orderly : Along (Session.step archive) (OrderlyAndSolicited archive) (Session.start records)
      es) :
    (∃ c log b, exec (Session.step archive) (Session.start records) es =
        some ⟨.running c, log⟩ ∧
      Board.Run Board.empty log.acts b ∧ b.Greedy ∧
      (∀ w, w ∈ b.crew ↔ w ∈ c.workerInfo.connectedWorkers) ∧
      (∀ i, b.job i = log.unanswered.lookup i) ∧
      ∀ w, b.worksOn w = (c.workAllocationMap.lookup w).map WorkAllocationRecord.islandId) ∨
    ∃ before e after f c log b, es = before ++ e :: after ∧
      ¬Controller.Undisturbed archive e.env e.msg ∧
      exec (Session.step archive) (Session.start records) (before ++ [e]) =
        some ⟨.stopped f c, log⟩ ∧
      Board.Run Board.empty log.acts b := by
  rcases board_run orderly with ⟨⟨server, log⟩, run, c, state⟩ |
    ⟨before, e, after, ⟨server, log⟩, whole, run, disturbed, f, c, b, stopped, history⟩
  · obtain rfl : server = .running c := state.orderly.running
    obtain ⟨b, history, depicts⟩ := state.shown
    refine Or.inl ⟨c, log, b, run, history, depicts.greedy state.orderly.partition state.noIdle,
      depicts.crew, ?_, depicts.worksOn⟩
    intro i
    apply Option.ext
    intro d
    rw [depicts.job, zero_add, ← state.ledger.balance, UnorderedMap.mem_bag]
  · obtain rfl : server = .stopped f c := stopped
    exact Or.inr ⟨before, e, after, f, c, log, b, whole, disturbed, run, history⟩

theorem controller_refines_board_rejoin :
    ∃ c log b, exec (Session.step Archive.plain) (Session.start ∅) rejoinRun =
        some ⟨.running c, log⟩ ∧
      Board.Run Board.empty (Log.acts log) b ∧ b.Greedy := by
  rcases controller_refines_board Archive.plain ∅ rejoinRun (by decide) with
    ⟨c, log, b, run, history, greedy, -⟩ | ⟨before, e, after, -, -, -, -, whole, disturbed, -⟩
  · exact ⟨c, log, b, run, history, greedy⟩
  · have calm : ∀ e ∈ rejoinRun, Controller.Undisturbed Archive.plain e.env e.msg := by decide
    exact absurd (calm e (whole ▸ List.mem_append_right before List.mem_cons_self)) disturbed

/-- When a worker is connected and no worker holds an allocation, every request of
    every island has been answered. -/
theorem all_answered_at_rest (archive : Archive β Algo Pop)
    (records : UnorderedMap WorkerId WorkerInfo) (es : List (Delivery β)) (c : Controller β)
    (log : Log β)
    (orderly : Along (Session.step archive) (OrderlyAndSolicited archive) (Session.start records)
      es)
    (run : exec (Session.step archive) (Session.start records) es = some ⟨.running c, log⟩)
    (connected : c.workerInfo.connectedWorkers ≠ ∅) (rest : c.workAllocationMap = ∅) :
    ∀ i, log.requestsFrom i = log.resultsTo i := by
  have state := board_of_running orderly run
  obtain ⟨b, -, depicts⟩ := state.shown
  obtain ⟨w, present⟩ := Finset.nonempty_iff_ne_empty.mpr connected
  have idle : ∀ v, b.worksOn v = none := by
    intro v
    rw [depicts.worksOn, rest]
    rfl
  intro i
  have finished := (depicts.greedy state.orderly.partition state.noIdle).job_eq_none
    ((depicts.crew w).mpr present) idle i
  have closed : i ∉ log.unanswered := by
    intro opened
    obtain ⟨d, found⟩ := Finmap.mem_iff.mp opened
    have posted := (depicts.job i d).mpr (by
      rw [zero_add]
      exact RequestReply.mem_ledger state.ledger.balance found)
    rw [finished] at posted
    cases posted
  have balanced : log.requestsFrom i = log.resultsTo i + if i ∈ log.unanswered then 1 else 0 :=
    state.ledger.conserved.balanced i
  rwa [if_neg closed] at balanced

theorem all_answered_at_rest_rejoin :
    ∃ c log, exec (Session.step Archive.plain) (Session.start ∅) rejoinRun =
        some ⟨.running c, log⟩ ∧ ∀ i, log.requestsFrom i = log.resultsTo i := by
  refine ⟨_, _, rfl, ?_⟩
  exact all_answered_at_rest Archive.plain ∅ rejoinRun _ _ (by decide) rfl (by decide) (by decide)

end Metasolver
