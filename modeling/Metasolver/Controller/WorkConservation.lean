import Metasolver.Controller.WorkerPartition

/-!
# Work conservation

The requests that the log shows as unanswered are, as a multiset, the requests
that the controller holds (`Ledger`).  Each handler moves requests between the
waiting map, the allocation map and, for a result, out of the controller; the
equation says that none is lost or doubled on the way.  Islands ask again only
after their last request has been answered (`Solicited`); otherwise
`_islandsWaitingForAlloc.emplace` would drop the second request.

A request for a library may carry anything.  If its name does not deserialize the
handler throws before it has changed anything, so the server stops with its ledger
in balance.  So it does if the settings cannot be saved or the lookup of the library
throws: a handler that is interrupted has moved a request as a whole or not at all.
-/

namespace Metasolver

open Exec

variable {β Algo Pop : Type} {archive : Archive β Algo Pop} {env : Surroundings}

/-- An island that asks for work has no request open. -/
def Solicited (open_ : UnorderedMap IslandId β) : Incoming β → Prop
  | .fromIsland i (.allocateWork _) => i ∉ open_
  | _ => True

instance (open_ : UnorderedMap IslandId β) : (msg : Incoming β) → Decidable (Solicited open_ msg)
  | .fromIsland i (.allocateWork _) => inferInstanceAs (Decidable (i ∉ open_))
  | .fromIsland _ (.unhandled _ _) => .isTrue trivial
  | .fromWorker _ _ => .isTrue trivial

namespace Controller

variable {c c' : Controller β} {i : IslandId} {d : β} {w : WorkerId} {log base : Log β}

/-- A request that is in hand is not among the waiting ones. -/
theorem fresh_of_ledger {open_ : UnorderedMap IslandId β}
    (ledger : UnorderedMap.bag open_ = (i, d) ::ₘ records c) : i ∉ c.islandsWaitingForAlloc := by
  intro waiting
  obtain ⟨d', found⟩ := Finmap.mem_iff.mp waiting
  have distinct := RequestReply.nodup_of_bag ledger
  rw [Multiset.map_cons, Multiset.nodup_cons] at distinct
  have held := mem_records_of_waiting found
  exact distinct.1 (Multiset.mem_map.mpr ⟨(i, d'), held, rfl⟩)

structure Ledger (log : Log β) (c : Controller β) : Prop where
  balance : UnorderedMap.bag log.unanswered = records c
  proper : RequestReply.Proper log.conversation

namespace Ledger

theorem start (records : UnorderedMap WorkerId WorkerInfo) :
    Ledger [] (Controller.start records : Controller β) where
  balance := rfl
  proper := .nil

/-- The log has grown, the conversation has not, and the requests are the same. -/
theorem carry {log' : Log β} (h : Ledger log c) (hl : log'.conversation = log.conversation)
    (hr : records c' = records c) : Ledger log' c' where
  balance := by rw [Log.unanswered, hl, hr]; exact h.balance
  proper := by rw [hl]; exact h.proper

theorem quiet (h : Ledger log c) : Ledger log { c with sent := [] } := h.carry rfl rfl

theorem handled {msg : Incoming β} (h : Handled archive env c msg c') (quiet : c.sent = [])
    (alternates : Alternates c.workerInfo.connectedWorkers msg) (partition : Partition c)
    (solicited : Solicited log.unanswered msg) (ledger : Ledger log c) :
    Ledger (Session.record log msg c') c' := by
  have told := Session.conversation_record log msg c'
  rw [h.forwarded_eq quiet] at told
  -- a message that is neither a request nor a result adds nothing to the conversation
  have silent : Log.conversationEvent (.received msg) = none → c.answer msg = none →
      (Session.record log msg c').conversation = log.conversation := by
    intro noRequest noAnswer
    rw [told, noRequest, noAnswer]
    simp
  cases h with
  | joinKnown => exact ledger.carry (silent rfl rfl) rfl
  | join w unknown c' h =>
      have kept : records c' = records (c.joined w) :=
        records_frees h (partition.joined alternates)
      exact ledger.carry (silent rfl rfl) kept
  | leaveIdle w idle => exact ledger.carry (silent rfl rfl) rfl
  | leaveBusy w record busy c' h =>
      have cleared : records c =
          (record.islandId, record.workData) ::ₘ records ((c.left w).cleared w) :=
        records_cleared (c := c.left w) busy
      have fresh := fresh_of_ledger (ledger.balance.trans cleared)
      have placed := records_places h partition.leave fresh
      exact ledger.carry (silent rfl rfl) (placed.trans cleared.symm)
  | results w binary wct repo record readable finished busy c' h =>
      have freed : records c' = records (c.answered w record.islandId binary repo) :=
        records_frees h (partition.answered busy finished)
      have remaining : records c' = records (c.cleared w) := freed
      have held := ledger.balance.trans (records_cleared busy)
      have replied : (Session.record log (.fromWorker w (.workResults binary)) c').conversation =
          log.conversation ++ [.reply record.islandId] := by
        rw [told, answer, busy]
        simp [Log.conversationEvent]
      constructor
      · rw [Log.unanswered, replied, RequestReply.pending_snoc, remaining]
        exact RequestReply.ledger_reply held
      · rw [replied]
        refine History.eachAfter_snoc.mpr ⟨ledger.proper, ?_⟩
        exact Finmap.mem_of_lookup_eq_some
          (RequestReply.lookup_of_ledger held (Multiset.mem_cons_self _ _))
  | getDll => exact ledger.carry (silent rfl rfl) rfl
  | request i d c' h =>
      have closed : i ∉ log.unanswered := solicited
      have fresh := (notRecorded_of_ledger ledger.balance closed).1
      have called : (Session.record log (.fromIsland i (.allocateWork d)) c').conversation =
          log.conversation ++ [.call i d] := by
        rw [told]
        simp [Log.conversationEvent, answer]
      constructor
      · rw [Log.unanswered, called, RequestReply.pending_snoc, records_places h partition fresh]
        exact RequestReply.ledger_call ledger.balance closed
      · rw [called]
        exact History.eachAfter_snoc.mpr ⟨ledger.proper, closed⟩
  | unhandledWorker => exact ledger.carry (silent rfl rfl) rfl
  | unhandledIsland => exact ledger.carry (silent rfl rfl) rfl

end Ledger

/-- An interrupted handler leaves the ledger in balance. -/
theorem Ledger.interrupted {msg : Incoming β} {calm : Controller β}
    (h : Interrupted msg c c' calm) (quiet : c.sent = []) (before : Ledger log c)
    (after : Ledger (Session.record log msg calm) calm) :
    Ledger (Session.record log msg c') c' := by
  have told := Session.conversation_record log msg c'
  cases h with
  | atOnce noRequest waiting allocated unsent =>
      have silent : Log.conversationEvent (.received msg) = none := by
        rcases msg with ⟨w, m⟩ | ⟨i, m⟩
        · rfl
        · cases m with
          | allocateWork d => exact absurd rfl (noRequest i d)
          | unhandled type binary => rfl
      refine before.carry ?_ ?_
      · rw [told, silent, unsent, quiet]
        simp
      · rw [records, waiting, allocated, records]
  | beforeStart w d waiting allocated sent =>
      have same := Session.conversation_record log msg calm
      rw [sent, forwarded_toWorker, ← told] at same
      refine after.carry same.symm ?_
      rw [records, waiting, allocated, records]

/-- An island that may ask for work is recorded nowhere. -/
theorem Ledger.notRecorded {msg : Incoming β} (ledger : Ledger log c)
    (solicited : Solicited log.unanswered msg) :
    ∀ i d, msg = .fromIsland i (.allocateWork d) → NotRecorded c i := by
  rintro i d rfl
  exact notRecorded_of_ledger ledger.balance solicited

/-- Every unanswered request is recorded in exactly one place with the work data that
    was submitted, no other island is recorded, and each island has been sent as many
    results as it made requests, less the one that is still unanswered. -/
structure Conserved (log : Log β) (c : Controller β) : Prop where
  recorded : ∀ i workData, log.unanswered.lookup i = some workData → c.RecordedOnce i workData
  noOther : ∀ i, i ∉ log.unanswered → c.NotRecorded i
  balanced : ∀ i, log.requestsFrom i =
    log.resultsTo i + if i ∈ log.unanswered then 1 else 0

theorem Ledger.conserved (ledger : Ledger log c) : Conserved log c where
  recorded _ _ opened := recordedOnce_of_ledger ledger.balance opened
  noOther _ closed := notRecorded_of_ledger ledger.balance closed
  balanced i := RequestReply.balanced ledger.proper i

end Controller

/-! ## Runs -/

def OrderlyAndSolicited (archive : Archive β Algo Pop) (s : Session β) (e : Delivery β) : Prop :=
  Orderly archive s e ∧ Solicited s.log.unanswered e.msg

instance (archive : Archive β Algo Pop) (s : Session β) (e : Delivery β) :
    Decidable (OrderlyAndSolicited archive s e) :=
  inferInstanceAs (Decidable (_ ∧ _))

/-- An orderly message keeps the ledger in balance, if no island asks twice. -/
theorem OrderlyState.step_solicited {s : Session β} {e : Delivery β} {c : Controller β}
    (state : OrderlyState archive s c) (ledger : Controller.Ledger s.log c)
    (ok : OrderlyAndSolicited archive s e) :
    ∃ c', Controller.Handled archive e.env.calm { c with sent := [] } e.msg c' ∧
      OrderlyState archive ⟨.running c', Session.record s.log e.msg c'⟩ c' ∧
      Controller.Ledger (Session.record s.log e.msg c') c' ∧
      (Session.step archive s e = some ⟨.running c', Session.record s.log e.msg c'⟩ ∨
        ∃ t, Halts archive s e c c' t) := by
  obtain ⟨orderly, solicited⟩ := ok
  obtain ⟨c', handled, next, step⟩ := state.step orderly
  have alternates := orderly.1
  rw [state.tracks.connected] at alternates
  refine ⟨c', handled, next, ?_, step⟩
  exact ledger.quiet.handled handled rfl alternates state.partition.quiet solicited

/-- The server runs, in order and with the ledger in balance. -/
def Balanced (archive : Archive β Algo Pop) (s : Session β) : Prop :=
  ∃ c, OrderlyState archive s c ∧ Controller.Ledger s.log c

theorem Balanced.start (archive : Archive β Algo Pop) (records : UnorderedMap WorkerId WorkerInfo) :
    Balanced archive (Session.start records) :=
  ⟨_, OrderlyState.start archive records, Controller.Ledger.start records⟩

/-- As long as the server runs, whatever else happens around it, orderly messages of islands
    that wait for their results keep it in order and the ledger in balance. -/
theorem balanced_of_running {records : UnorderedMap WorkerId WorkerInfo} {es : List (Delivery β)}
    {c : Controller β} {log : Log β}
    (orderly : Along (Session.step archive) (OrderlyAndSolicited archive) (Session.start records)
      es)
    (run : exec (Session.step archive) (Session.start records) es = some ⟨.running c, log⟩) :
    OrderlyState archive ⟨.running c, log⟩ c ∧ Controller.Ledger log c := by
  refine Session.running_invariant (I := fun s c => OrderlyState archive s c ∧
    Controller.Ledger s.log c) ?_ rfl ⟨.start archive records, .start records⟩ orderly run rfl
  intro s e t c c' ⟨state, ledger⟩ ok step running
  obtain ⟨c₁, -, next, balanced, goesOn | ⟨u, halts⟩⟩ := state.step_solicited ledger ok
  · obtain rfl := Option.some.inj (step.symm.trans goesOn)
    obtain rfl := Server.running.inj running
    exact ⟨next, balanced⟩
  · exact absurd running (halts.not_running step)

/-- What is asked of the messages if only the work in them has to deserialize. -/
def Regular (archive : Archive β Algo Pop) (s : Session β) (e : Delivery β) : Prop :=
  Controller.Alternates s.log.connected e.msg ∧ Controller.ReadsWork archive e.msg ∧
    (s.server.Running fun c => c.Expected e.msg) ∧ Solicited s.log.unanswered e.msg

instance (archive : Archive β Algo Pop) (s : Session β) (e : Delivery β) :
    Decidable (Regular archive s e) :=
  inferInstanceAs (Decidable (_ ∧ _ ∧ _ ∧ _))

/-- The message is a request for a library that cannot be read, or its handler has been
    interrupted by a save or by a lookup that throws. -/
def StopsServer (archive : Archive β Algo Pop) (e : Delivery β) : Prop :=
  Controller.UnreadableDllRequest archive e.msg ∨ ¬Controller.Undisturbed archive e.env e.msg

/-- The message has stopped the server, with the ledger in balance. -/
def StoppedInBalance (archive : Archive β Algo Pop) (e : Delivery β) (t : Session β) : Prop :=
  StopsServer archive e ∧ ∃ f c, t.server = .stopped f c ∧ Controller.Ledger t.log c

theorem OrderlyState.step_unreadable {s : Session β} {e : Delivery β} {c : Controller β}
    (state : OrderlyState archive s c) (ledger : Controller.Ledger s.log c)
    (bad : Controller.UnreadableDllRequest archive e.msg) :
    ∃ t, Session.step archive s e = some t ∧ StoppedInBalance archive e t := by
  obtain ⟨f, faulted⟩ : ∃ f, (Controller.handle archive e.env e.msg).run { c with sent := [] } =
      .error f { c with sent := [] } := Controller.handle_unreadable bad
  have silent : Log.conversationEvent (.received e.msg) = none := by
    rcases e with ⟨env, ⟨w, m⟩ | ⟨i, m⟩⟩
    · rfl
    · exact bad.elim
  refine ⟨⟨.stopped f { c with sent := [] }, Session.record s.log e.msg { c with sent := [] }⟩,
    ?_, Or.inl bad, f, _, rfl, ledger.carry ?_ rfl⟩
  · simp only [Session.step, state.running, faulted]
  · rw [Session.conversation_record, silent]
    simp

/-- After each message the requests are conserved.  The server handles every message,
    unless it is stopped by a request for a library that does not deserialize, by a save of
    the settings or by a lookup that throws; and the requests are conserved then, too. -/
theorem work_conservation (archive : Archive β Algo Pop)
    (records : UnorderedMap WorkerId WorkerInfo) (es : List (Delivery β))
    (regular : Along (Session.step archive) (Regular archive) (Session.start records) es) :
    (∃ c log, exec (Session.step archive) (Session.start records) es =
        some ⟨.running c, log⟩ ∧ Controller.Conserved log c) ∨
      ∃ before e after f c log, es = before ++ e :: after ∧ StopsServer archive e ∧
        exec (Session.step archive) (Session.start records) (before ++ [e]) =
          some ⟨.stopped f c, log⟩ ∧ Controller.Conserved log c := by
  have progress : ∀ s e, Balanced archive s → Regular archive s e →
      ∃ t, Session.step archive s e = some t ∧
        (Balanced archive t ∨ StoppedInBalance archive e t) := by
    intro s e ⟨c, state, ledger⟩ ⟨alternates, reads, expected, solicited⟩
    rcases reads.deserializes with deserializes | bad
    · obtain ⟨c', -, next, balanced, step | ⟨t, halts⟩⟩ :=
        state.step_solicited ledger ⟨⟨alternates, deserializes, expected⟩, solicited⟩
      · exact ⟨_, step, Or.inl ⟨c', next, balanced⟩⟩
      · obtain ⟨x, c₁, rfl, interrupted⟩ := halts.stopped
        exact ⟨_, halts.step, Or.inr ⟨Or.inr halts.disturbed, _, c₁, rfl,
          ledger.quiet.interrupted interrupted rfl balanced⟩⟩
    · obtain ⟨t, step, stopped⟩ := state.step_unreadable ledger bad
      exact ⟨t, step, Or.inr stopped⟩
  rcases exec_until progress (Balanced.start archive records) regular with
    ⟨⟨server, log⟩, run, c, state, ledger⟩ |
    ⟨before, e, after, ⟨server, log⟩, whole, run, stops, f, c, stopped, ledger⟩
  · obtain rfl : server = .running c := state.running
    exact Or.inl ⟨c, log, run, ledger.conserved⟩
  · obtain rfl : server = .stopped f c := stopped
    exact Or.inr ⟨before, e, after, f, c, log, whole, stops, run, ledger.conserved⟩

theorem work_conservation_rejoin :
    ∃ c log, exec (Session.step Archive.plain) (Session.start ∅) rejoinRun =
        some ⟨.running c, log⟩ ∧ Controller.Conserved log c := by
  rcases work_conservation Archive.plain ∅ rejoinRun (by decide) with
    ends | ⟨before, e, after, f, c, log, whole, stops, -⟩
  · exact ends
  · have none : ∀ e ∈ rejoinRun, ¬StopsServer Archive.plain e := by
      simp [rejoinRun, StopsServer, Controller.UnreadableDllRequest, Controller.Undisturbed,
        default]
    exact absurd stops (none e (whole ▸ List.mem_append_right before List.mem_cons_self))

end Metasolver
