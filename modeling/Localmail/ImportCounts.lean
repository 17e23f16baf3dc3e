/-
The counters of an import are those of what it has committed.  Messages are
counted where their writes become visible in the session, and the counters as
of a commit are kept where those writes become durable.
-/
import Localmail.ImportRun
import Localmail.LabelledRun

namespace Localmail

namespace ImportRun

/-! ### Writes and counters -/

section Effects

variable {writes added : List ImportWrite} {position number : Nat}

theorem effectOf_congr {first second : List ImportWrite}
    (hsame : ∀ kind, ImportWrite.mk position kind ∈ first ↔
      ImportWrite.mk position kind ∈ second) :
    effectOf first position = effectOf second position := by
  simp only [effectOf, hsame]

/-- Writes for one message say nothing of the others. -/
theorem effectOf_append_of_ne (hadded : ∀ write ∈ added, write.position = number)
    (hne : position ≠ number) :
    effectOf (writes ++ added) position = effectOf writes position := by
  apply effectOf_congr
  intro kind
  rw [List.mem_append, or_iff_left]
  intro hmem
  exact hne (hadded _ hmem)

/-- The first writes for a message decide what becomes of it. -/
theorem effectOf_append_new (hbelow : ∀ write ∈ writes, write.position < number) :
    effectOf (writes ++ added) number = effectOf added number := by
  apply effectOf_congr
  intro kind
  rw [List.mem_append, or_iff_right]
  intro hmem
  exact Nat.lt_irrefl _ (hbelow _ hmem)

theorem effectOf_eq_none (hbelow : ∀ write ∈ writes, write.position < number)
    (hle : number ≤ position) : effectOf writes position = none := by
  have hout : ∀ kind, ImportWrite.mk position kind ∉ writes := by
    intro kind hmem
    exact Nat.lt_irrefl _ (Nat.lt_of_lt_of_le (hbelow _ hmem) hle)
  simp [effectOf, hout]

end Effects

/-- The counters are those of the writes. -/
structure Balanced (writes : List ImportWrite) (counters : ImportCounters) :
    Prop where
  below : ∀ write ∈ writes, write.position < counters.processed
  total : counters.processed =
    counters.inserted + counters.skippedDup + counters.failed
  tally : ∀ outcome, counters.of outcome =
    (List.range counters.processed).countP fun position =>
      effectOf writes position = some outcome

section Balance

variable {writes added : List ImportWrite} {counters : ImportCounters}
  {outcome : MessageOutcome}

theorem balanced_nil : Balanced [] .zero where
  below := nofun
  total := rfl
  tally := by
    intro outcome
    cases outcome <;> rfl

theorem processed_count :
    (counters.count outcome).processed = counters.processed + 1 := by
  cases outcome <;> rfl

theorem of_count (other : MessageOutcome) :
    (counters.count outcome).of other =
      counters.of other + if other = outcome then 1 else 0 := by
  cases outcome <;> cases other <;> rfl

/-- The next message, with its writes. -/
theorem Balanced.count (hbalanced : Balanced writes counters)
    (hadded : ∀ write ∈ added, write.position = counters.processed)
    (heffect : effectOf added counters.processed = some outcome) :
    Balanced (writes ++ added) (counters.count outcome) where
  below := by
    intro write hwrite
    rw [processed_count]
    rcases List.mem_append.mp hwrite with hold | hnew
    · exact Nat.lt_succ_of_lt (hbalanced.below write hold)
    · exact Nat.lt_succ_of_le (Nat.le_of_eq (hadded write hnew))
  total := by
    have htotal := hbalanced.total
    cases outcome <;> simp only [ImportCounters.count] <;> omega
  tally := by
    intro other
    have hearlier : (List.range counters.processed).countP (fun position =>
        effectOf (writes ++ added) position = some other) =
        (List.range counters.processed).countP fun position =>
          effectOf writes position = some other := by
      apply List.countP_congr
      intro position hposition
      rw [effectOf_append_of_ne hadded
        (Nat.ne_of_lt (List.mem_range.mp hposition))]
    rw [processed_count, of_count, List.range_succ, List.countP_append, hearlier,
      ← hbalanced.tally, List.countP_singleton, effectOf_append_new hbalanced.below,
      heffect]
    simp [eq_comm]

/-- Of the messages still to come nothing is written. -/
theorem Balanced.countP_range (hbalanced : Balanced writes counters)
    {yielded : Nat} (hseen : counters.processed ≤ yielded) :
    ((List.range yielded).countP fun position =>
      effectOf writes position = some outcome) = counters.of outcome := by
  obtain ⟨later, rfl⟩ := Nat.exists_eq_add_of_le hseen
  rw [List.range_add, List.countP_append, ← hbalanced.tally,
    Nat.add_eq_left, List.countP_eq_zero]
  intro position hposition
  obtain ⟨offset, -, rfl⟩ := List.mem_map.mp hposition
  rw [effectOf_eq_none hbalanced.below (Nat.le_add_right _ _)]
  simp

end Balance

/-! ### Where a run stands -/

section Standing

variable (session : Session ImportWrite) (counters committed : ImportCounters)
  (yielded : Nat) (row : Option (JobStatus × ImportCounters))

/-- The run has not come to its end. -/
structure Open : Prop where
  durable : Balanced session.durable committed
  seen : committed.processed ≤ yielded
  row : row = none

/-- Nothing is pending. -/
structure Settled : Prop where
  same : counters = committed
  pending : session.pending = []
  yielded : yielded = counters.processed

/-- Every message yielded has been counted. -/
structure Between : Prop where
  view : Balanced session.view counters
  yielded : yielded = counters.processed

/-- A message is at hand, and nothing is written for it. -/
structure Met : Prop where
  view : Balanced session.view counters
  yielded : yielded = counters.processed + 1

/-- A message is at hand, with these writes since its savepoint. -/
structure Working (saved : List ImportWrite) (kinds : List WriteKind) :
    Prop where
  pending : session.pending =
    saved ++ kinds.map fun kind => ⟨counters.processed, kind⟩
  saved : Balanced (session.durable ++ saved) counters
  yielded : yielded = counters.processed + 1

/-- The run may write these counters. -/
structure Final : Prop where
  durable : Balanced session.durable counters
  seen : counters.processed ≤ yielded

/-- What it has written is right. -/
def Written : Prop :=
  ∀ status counters, row = some (status, counters) →
    Final session counters yielded

end Standing

def RunInv (state : RunState) : Prop :=
  let opened := Open state.session state.committed state.yielded state.row
  match state.phase with
  | .connecting | .loading | .marking | .markCommitting | .polling
  | .closing _ =>
      opened ∧ Settled state.session state.counters state.committed state.yielded
  | .fetching | .counted | .flushing | .flushCommitting | .committing _ =>
      opened ∧ Between state.session state.counters state.yielded
  | .openingMailbox _ | .committingMailbox _ | .readingUid | .savepoint
  | .readingFailedUid | .failLog | .recording =>
      opened ∧ Met state.session state.counters state.yielded
  | .upserting saved =>
      opened ∧ Working state.session state.counters state.yielded saved []
  | .labelling saved didInsert =>
      opened ∧ Working state.session state.counters state.yielded saved
        (if didInsert then [.messageRow] else [])
  | .storing saved =>
      opened ∧ Working state.session state.counters state.yielded saved
        [.messageRow, .label]
  | .releasing saved didInsert =>
      opened ∧ ∃ kinds,
        Working state.session state.counters state.yielded saved kinds ∧
        .label ∈ kinds ∧ .failedRow ∉ kinds ∧
        (.messageRow ∈ kinds ↔ didInsert = true)
  | .rollingBack saved =>
      opened ∧ Balanced (state.session.durable ++ saved) state.counters ∧
        state.yielded = state.counters.processed + 1
  | .unrecording => False
  | .terminal _ counters _ =>
      Final state.session counters state.yielded ∧
        Written state.session state.yielded state.row
  | .ended => Written state.session state.yielded state.row

section Standing

variable {settings : ImportSettings} {state next after : RunState}
  {event : RunEvent}

theorem Settled.between {session : Session ImportWrite}
    {counters committed : ImportCounters} {yielded : Nat}
    (hsettled : Settled session counters committed yielded)
    (hdurable : Balanced session.durable committed) :
    Between session counters yielded where
  view := by
    rw [Session.view, hsettled.pending, List.append_nil, hsettled.same]
    exact hdurable
  yielded := hsettled.yielded

theorem written_none {session : Session ImportWrite} {yielded : Nat}
    {row : Option (JobStatus × ImportCounters)} (hrow : row = none) :
    Written session yielded row := by
  intro status counters hsome
  rw [hrow] at hsome
  cases hsome

abbrev RunState.IsOpen (state : RunState) : Prop :=
  Open state.session state.committed state.yielded state.row

/-- A job that fails reports what its last commit counted. -/
theorem runInv_fail (hopen : state.IsOpen) : RunInv (state.fail settings) :=
  ⟨⟨hopen.durable, hopen.seen⟩, written_none hopen.row⟩

theorem runInv_statement
    (hstep : state.statement settings next event = some after)
    (hopen : state.IsOpen) (hnext : RunInv next) : RunInv after := by
  cases event with
  | ok =>
      obtain rfl := Option.some.inj hstep
      exact hnext
  | raises contention =>
      obtain rfl := Option.some.inj hstep
      exact runInv_fail hopen
  | _ => cases hstep

theorem runInv_commitStatement
    (hstep : state.commitStatement settings next event = some after)
    (hopen : state.IsOpen) (hview : Balanced state.session.view state.counters)
    (hlost : event = .lost → state.counters = state.committed)
    (hnext : RunInv next) : RunInv after := by
  cases event with
  | ok =>
      obtain rfl := Option.some.inj hstep
      exact hnext
  | raises contention =>
      obtain rfl := Option.some.inj hstep
      exact runInv_fail hopen
  | lost =>
      obtain rfl := Option.some.inj hstep
      have hcommitted : Balanced state.session.view state.committed := by
        rw [← hlost rfl]
        exact hview
      exact ⟨⟨hcommitted, hopen.seen⟩, written_none hopen.row⟩
  | _ => cases hstep

/-- After a commit nothing is pending. -/
theorem open_commit (hopen : state.IsOpen)
    (hview : Balanced state.session.view state.counters)
    (hseen : state.counters.processed ≤ state.yielded) :
    Open state.session.commit state.counters state.yielded state.row :=
  ⟨hview, hseen, hopen.row⟩

end Standing

/-! ### Each part of a run -/

section Steps

variable {settings : ImportSettings} {state after : RunState}
  {phase : RunPhase} {event : RunEvent} {saved : List ImportWrite}
  {kinds : List WriteKind}

theorem runInv_prepare (hopen : state.IsOpen)
    (hsettled : Settled state.session state.counters state.committed
      state.yielded)
    (hstep : state.prepare settings phase event = some after) :
    RunInv after := by
  have hbetween := hsettled.between hopen.durable
  unfold RunState.prepare at hstep
  split at hstep
  · exact runInv_statement hstep hopen ⟨hopen, hsettled⟩
  · cases hstep
    exact written_none hopen.row
  · exact runInv_statement hstep hopen ⟨hopen, hsettled⟩
  · exact runInv_statement hstep hopen ⟨hopen, hsettled⟩
  · cases hstep
    exact written_none hopen.row
  · have hview : Balanced state.session.view state.committed := by
      rw [← hsettled.same]
      exact hbetween.view
    refine runInv_commitStatement hstep hopen hbetween.view
      (fun _ => hsettled.same) ⟨⟨hview, hopen.seen, hopen.row⟩, ?_, ?_⟩
    · change Balanced state.session.commit.view state.counters
      rw [Session.view_commit]
      exact hbetween.view
    · exact hsettled.yielded
  · cases hstep

/-- From the source to the savepoint. -/
theorem runInv_fetching (hopen : state.IsOpen)
    (hbetween : Between state.session state.counters state.yielded)
    (hstep : state.meet settings .fetching event = some after) :
    RunInv after := by
  cases event with
  | yields name =>
      cases hstep
      have hopened : Open state.session state.committed (state.yielded + 1)
          state.row :=
        ⟨hopen.durable, Nat.le_succ_of_le hopen.seen, hopen.row⟩
      have hmet : Met state.session state.counters (state.yielded + 1) :=
        ⟨hbetween.view, by rw [hbetween.yielded]⟩
      by_cases hknown : name ∈ state.mailboxes
      · simp only [RunInv, if_pos hknown]
        exact ⟨hopened, hmet⟩
      · simp only [RunInv, if_neg hknown]
        exact ⟨hopened, hmet⟩
  | exhausted =>
      cases hstep
      exact ⟨hopen, hbetween⟩
  | raises contention =>
      cases hstep
      exact runInv_fail hopen
  | _ => cases hstep

theorem Met.working (hmet : Met state.session state.counters state.yielded) :
    Working state.session state.counters state.yielded state.session.pending
      [] :=
  ⟨(List.append_nil _).symm, hmet.view, hmet.yielded⟩

theorem runInv_meet (hstep : state.meet settings phase event = some after)
    (hne : phase ≠ .fetching) (hopen : state.IsOpen)
    (hmet : Met state.session state.counters state.yielded)
    (hlost : phase.isCommit = true → event = .lost →
      state.counters = state.committed) : RunInv after := by
  unfold RunState.meet at hstep
  split at hstep
  · exact absurd rfl hne
  · exact absurd rfl hne
  · exact absurd rfl hne
  · exact runInv_statement hstep hopen ⟨hopen, hmet⟩
  · have hseen : state.counters.processed ≤ state.yielded := by
      rw [hmet.yielded]
      exact Nat.le_succ _
    refine runInv_commitStatement hstep hopen hmet.view (hlost rfl)
      ⟨open_commit hopen hmet.view hseen, ?_, hmet.yielded⟩
    change Balanced state.session.commit.view state.counters
    rw [Session.view_commit]
    exact hmet.view
  · exact runInv_statement hstep hopen ⟨hopen, hmet⟩
  · exact runInv_statement hstep hopen ⟨hopen, hmet.working⟩
  · cases hstep

/-- The writes for the message at hand. -/
theorem Working.write (hworking : Working state.session state.counters
      state.yielded saved kinds) (more : List WriteKind) :
    Working (state.write more).session state.counters state.yielded saved
      (kinds ++ more) where
  pending := by
    have hposition : state.position = state.counters.processed := by
      rw [RunState.position, hworking.yielded, Nat.add_sub_cancel]
    simp only [RunState.write, Session.write, hworking.pending, hposition,
      List.map_append, List.append_assoc]
  saved := hworking.saved
  yielded := hworking.yielded

theorem open_write (hopen : state.IsOpen) (kinds : List WriteKind) :
    (state.write kinds).IsOpen :=
  ⟨hopen.durable, hopen.seen, hopen.row⟩

/-- A message that cannot be processed is rolled back, or fails the job. -/
theorem runInv_poison (hopen : state.IsOpen)
    (hworking : Working state.session state.counters state.yielded saved kinds)
    (contention : Bool) :
    RunInv (state.poison settings saved contention) := by
  unfold RunState.poison
  cases contention with
  | true => exact runInv_fail hopen
  | false => exact ⟨hopen, hworking.saved, hworking.yielded⟩

/-- A message whose savepoint is released counts as what its writes make of
it. -/
theorem runInv_count (hopen : state.IsOpen) {outcome : MessageOutcome}
    (hworking : Working state.session state.counters state.yielded saved kinds)
    (heffect : effectOf (kinds.map fun kind => ⟨state.counters.processed, kind⟩)
      state.counters.processed = some outcome) :
    RunInv (state.count outcome) := by
  refine ⟨hopen, ?_, ?_⟩
  · change Balanced (state.session.durable ++ state.session.pending) _
    rw [hworking.pending, ← List.append_assoc]
    refine hworking.saved.count ?_ heffect
    intro write hwrite
    obtain ⟨kind, -, rfl⟩ := List.mem_map.mp hwrite
    rfl
  · change state.yielded = (state.counters.count outcome).processed
    rw [processed_count, hworking.yielded]

/-- What becomes of the message at hand, read off its writes. -/
theorem effectOf_map (kinds : List WriteKind) (position : Nat) :
    effectOf (kinds.map fun kind => ⟨position, kind⟩) position =
      if .failedRow ∈ kinds then some .failed
      else if .label ∈ kinds then
        if .messageRow ∈ kinds then some .inserted else some .skippedDup
      else none := by
  simp [effectOf]

theorem runInv_upserting (hopen : state.IsOpen)
    (hworking : Working state.session state.counters state.yielded saved [])
    (hstep : state.process settings (.upserting saved) event = some after) :
    RunInv after := by
  cases event with
  | upserted didInsert =>
      cases hstep
      exact ⟨open_write hopen _, hworking.write _⟩
  | raises contention =>
      cases hstep
      exact runInv_poison hopen hworking contention
  | _ => cases hstep

theorem runInv_labelling (hopen : state.IsOpen) {didInsert : Bool}
    (hworking : Working state.session state.counters state.yielded saved
      (if didInsert then [.messageRow] else []))
    (hstep : state.process settings (.labelling saved didInsert) event =
      some after) : RunInv after := by
  cases event with
  | labelled hasAttachments =>
      cases hstep
      have hlabelled := hworking.write [.label]
      have hopened := open_write hopen [.label]
      cases didInsert with
      | false => exact ⟨hopened, _, hlabelled, by simp, by simp, by simp⟩
      | true =>
          cases hasAttachments with
          | false => exact ⟨hopened, _, hlabelled, by simp, by simp, by simp⟩
          | true => exact ⟨hopened, hlabelled⟩
  | raises contention =>
      cases hstep
      exact runInv_poison hopen hworking contention
  | _ => cases hstep

theorem runInv_storing (hopen : state.IsOpen)
    (hworking : Working state.session state.counters state.yielded saved
      [.messageRow, .label])
    (hstep : state.process settings (.storing saved) event = some after) :
    RunInv after := by
  cases event with
  | ok =>
      cases hstep
      exact ⟨open_write hopen _, _, hworking.write [.attachments], by simp,
        by simp, by simp⟩
  | raises contention =>
      cases hstep
      exact runInv_poison hopen hworking contention
  | _ => cases hstep

theorem runInv_releasing (hopen : state.IsOpen) {didInsert : Bool}
    (hworking : Working state.session state.counters state.yielded saved kinds)
    (hlabel : .label ∈ kinds) (hfailed : .failedRow ∉ kinds)
    (hmessage : .messageRow ∈ kinds ↔ didInsert = true)
    (hstep : state.process settings (.releasing saved didInsert) event =
      some after) : RunInv after := by
  cases event with
  | ok =>
      cases hstep
      refine runInv_count hopen hworking ?_
      rw [effectOf_map, if_neg hfailed, if_pos hlabel]
      simp only [hmessage]
      split <;> rfl
  | raises contention =>
      cases hstep
      exact runInv_poison hopen hworking contention
  | _ => cases hstep

/-- The savepoint is rolled back to: nothing is written for the message. -/
theorem runInv_rollingBack (hopen : state.IsOpen)
    (hsaved : Balanced (state.session.durable ++ saved) state.counters)
    (hyielded : state.yielded = state.counters.processed + 1)
    (hstep : state.record settings (.rollingBack saved) event = some after) :
    RunInv after :=
  runInv_statement hstep hopen
    ⟨⟨hopen.durable, hopen.seen, hopen.row⟩, hsaved, hyielded⟩

theorem runInv_record (hstep : state.record settings phase event = some after)
    (hphase : phase = .readingFailedUid ∨ phase = .failLog ∨ phase = .recording)
    (hopen : state.IsOpen)
    (hmet : Met state.session state.counters state.yielded)
    (hkept : phase = .recording → event ≠ .raises false) : RunInv after := by
  unfold RunState.record at hstep
  split at hstep
  · simp at hphase
  · exact runInv_statement hstep hopen ⟨hopen, hmet⟩
  · exact runInv_statement hstep hopen ⟨hopen, hmet⟩
  · exact absurd rfl (hkept rfl)
  · refine runInv_statement hstep hopen ?_
    refine runInv_count (open_write hopen _) (hmet.working.write [.failedRow]) ?_
    rw [effectOf_map]
    rfl
  · simp at hphase
  · cases hstep

theorem runInv_checkpoint
    (hstep : state.checkpoint settings phase event = some after)
    (hne : phase ≠ .polling) (hopen : state.IsOpen)
    (hbetween : Between state.session state.counters state.yielded)
    (hlost : phase.isCommit = true → event = .lost →
      state.counters = state.committed) : RunInv after := by
  unfold RunState.checkpoint at hstep
  split at hstep
  · cases hstep
    split
    · exact ⟨hopen, hbetween⟩
    · exact ⟨hopen, hbetween⟩
  · exact runInv_statement hstep hopen ⟨hopen, hbetween⟩
  · exact runInv_commitStatement hstep hopen hbetween.view (hlost rfl)
      ⟨open_commit hopen hbetween.view (Nat.le_of_eq hbetween.yielded.symm),
        rfl, rfl, hbetween.yielded⟩
  · exact absurd rfl hne
  · exact absurd rfl hne
  · cases hstep

theorem runInv_polling (hopen : state.IsOpen)
    (hsettled : Settled state.session state.counters state.committed
      state.yielded)
    (hstep : state.checkpoint settings .polling event = some after) :
    RunInv after := by
  have hbetween := hsettled.between hopen.durable
  cases event with
  | polled cancelRequested =>
      cases hstep
      cases cancelRequested with
      | true => exact ⟨hopen, hbetween⟩
      | false => exact ⟨hopen, hbetween⟩
  | raises contention =>
      cases hstep
      exact runInv_fail hopen
  | _ => cases hstep

theorem runInv_committing (hopen : state.IsOpen) {cancelled : Bool}
    (hbetween : Between state.session state.counters state.yielded)
    (hlost : event = .lost → state.counters = state.committed)
    (hstep : state.finish settings (.committing cancelled) event = some after) :
    RunInv after :=
  runInv_commitStatement hstep hopen hbetween.view hlost
    ⟨open_commit hopen hbetween.view (Nat.le_of_eq hbetween.yielded.symm),
      rfl, rfl, hbetween.yielded⟩

theorem runInv_closing (hopen : state.IsOpen) {cancelled : Bool}
    (hsettled : Settled state.session state.counters state.committed
      state.yielded)
    (hstep : state.finish settings (.closing cancelled) event = some after) :
    RunInv after := by
  refine runInv_statement hstep hopen ⟨⟨?_, ?_⟩, written_none hopen.row⟩
  · rw [hsettled.same]
    exact hopen.durable
  · exact Nat.le_of_eq hsettled.yielded.symm

/-- The terminal write, attempt after attempt. -/
theorem runInv_terminal {status : JobStatus} {counters : ImportCounters}
    {left : Nat} (hfinal : Final state.session counters state.yielded)
    (hwritten : Written state.session state.yielded state.row)
    (hstep : state.finish settings (.terminal status counters left) event =
      some after) : RunInv after := by
  have hthis : Written state.session state.yielded (some (status, counters)) := by
    intro other written hsome
    cases hsome
    exact hfinal
  cases left with
  | zero => cases hstep
  | succ left =>
      cases event with
      | ok =>
          cases hstep
          exact hthis
      | raises contention =>
          cases hstep
          cases left with
          | zero => exact hwritten
          | succ left => exact ⟨hfinal, hwritten⟩
      | lost =>
          cases hstep
          cases left with
          | zero => exact hthis
          | succ left => exact ⟨hfinal, hthis⟩
      | _ => cases hstep

/-- Every statement of a run. -/
theorem runInv_step (hinv : RunInv state) (hmeets : TellsItsEffects state event)
    (hstep : state.step settings event = some after) : RunInv after := by
  obtain ⟨hkept, hlost⟩ := hmeets
  unfold RunInv at hinv
  unfold RunState.step at hstep
  cases hphase : state.phase <;> rw [hphase] at hinv hstep hkept hlost
  case connecting | loading | marking | markCommitting =>
    exact runInv_prepare hinv.1 hinv.2 hstep
  case fetching => exact runInv_fetching hinv.1 hinv.2 hstep
  case openingMailbox | committingMailbox | readingUid | savepoint =>
    exact runInv_meet hstep nofun hinv.1 hinv.2 hlost
  case upserting => exact runInv_upserting hinv.1 hinv.2 hstep
  case labelling => exact runInv_labelling hinv.1 hinv.2 hstep
  case storing => exact runInv_storing hinv.1 hinv.2 hstep
  case releasing =>
    obtain ⟨hopen, kinds, hworking, hlabel, hfailed, hmessage⟩ := hinv
    exact runInv_releasing hopen hworking hlabel hfailed hmessage hstep
  case rollingBack =>
    exact runInv_rollingBack hinv.1 hinv.2.1 hinv.2.2 hstep
  case readingFailedUid | failLog | recording =>
    exact runInv_record hstep (by simp) hinv.1 hinv.2 hkept
  case unrecording => exact hinv.elim
  case counted | flushing | flushCommitting =>
    exact runInv_checkpoint hstep nofun hinv.1 hinv.2 hlost
  case polling => exact runInv_polling hinv.1 hinv.2 hstep
  case committing => exact runInv_committing hinv.1 hinv.2 (hlost rfl) hstep
  case closing => exact runInv_closing hinv.1 hinv.2 hstep
  case terminal => exact runInv_terminal hinv.1 hinv.2 hstep
  case ended => cases hstep

end Steps

theorem runInv_start (settings : ImportSettings) :
    RunInv (RunState.start settings) := by
  by_cases hnone : settings.terminalWriteAttempts = 0
  · simp only [RunInv, RunState.start, if_pos hnone]
    exact written_none rfl
  · simp only [RunInv, RunState.start, if_neg hnone]
    exact ⟨⟨balanced_nil, Nat.le_refl _, rfl⟩, rfl, rfl, rfl⟩

theorem countersExact_of_written {state : RunState}
    (hwritten : Written state.session state.yielded state.row) :
    CountersExact state := by
  intro status counters hrow
  obtain ⟨hbalanced, hseen⟩ := hwritten status counters hrow
  exact ⟨hbalanced.total, fun outcome => (hbalanced.countP_range hseen).symm⟩

/-- For any source, outcomes, faults, cadence and cancel: the terminal row
counts what is durable, in every run that records its poison messages and
learns of its commits. -/
theorem import_counters_exact (settings : ImportSettings) (state : RunState)
    (hreach : GuardedReach (fun state event => state.step settings event)
      TellsItsEffects (.start settings) state) : CountersExact state := by
  have hinv : RunInv state :=
    hreach.invariant (runInv_start settings)
      fun _ _ _ hbefore hmeets hstep => runInv_step hbefore hmeets hstep
  apply countersExact_of_written
  unfold RunInv at hinv
  cases hphase : state.phase <;> rw [hphase] at hinv
  case terminal => exact hinv.2
  case ended => exact hinv
  case unrecording => exact hinv.elim
  all_goals exact written_none hinv.1.row

namespace Runs

def settings : ImportSettings := ⟨100, 5, 3⟩

/-- The job is claimed, and its first mailbox opened. -/
def opening : List RunEvent :=
  [.ok, .ok, .ok, .ok, .yields (text "Inbox"), .ok, .ok, .ok, .ok]

/-- The first checkpoint. -/
def checkpoint : List RunEvent := [.elapsed 0, .ok, .ok, .polled false]

def ending : List RunEvent := [.exhausted, .ok, .ok, .ok]

/-- A new message, the same again, and one that cannot be parsed. -/
def threeMessages : List RunEvent :=
  opening ++ [.upserted true, .labelled true, .ok, .ok] ++ checkpoint ++
    [.yields (text "Inbox"), .ok, .upserted false, .labelled true, .ok,
      .elapsed 1, .yields (text "Inbox"), .ok, .raises false, .ok, .ok, .ok,
      .ok, .elapsed 2] ++ ending

/-- A message that cannot be parsed, and cannot be recorded either. -/
def givenUp : List RunEvent :=
  opening ++ [.raises false, .ok, .ok, .ok, .raises false, .ok] ++ checkpoint ++
    ending

/-- The commit of the first checkpoint happens, but its answer is lost. -/
def lostCommit : List RunEvent :=
  opening ++ [.upserted true, .labelled false, .ok, .elapsed 0, .ok, .lost, .ok]

end Runs

open Runs in
theorem import_counters_exact_threeMessages : ∃ state,
    replayGuarded (fun state event => RunState.step settings state event)
      TellsItsEffects (.start settings) threeMessages = some state ∧
    state.row = some (.completed, ⟨3, 1, 1, 1⟩) ∧ CountersExact state := by
  refine ⟨_, rfl, rfl, ?_⟩
  exact import_counters_exact settings _ (GuardedReach.of_replay threeMessages rfl)

open Runs in
/-- A failure that is given up is counted all the same. -/
theorem import_counters_differ :
    ¬ ∀ (settings : ImportSettings) (state : RunState),
      Reach (fun state event => RunState.step settings state event)
        (.start settings) state → CountersExact state := by
  intro hclaim
  obtain ⟨state, hreplay, hrow, hdurable⟩ : ∃ state,
      replayGuarded (fun state event => RunState.step settings state event)
        (fun _ _ => True) (.start settings) givenUp = some state ∧
      state.row = some (.completed, ⟨1, 0, 0, 1⟩) ∧
      durableCount state .failed = 0 :=
    ⟨_, rfl, rfl, rfl⟩
  have hexact := hclaim settings state (GuardedReach.of_replay givenUp hreplay)
  have hfailed := (hexact _ _ hrow).2 .failed
  rw [hdurable] at hfailed
  cases hfailed

open Runs in
example : ∃ state,
    replayGuarded (fun state event => RunState.step settings state event)
      (fun _ _ => True) (.start settings) lostCommit = some state ∧
    state.row = some (.failed, .zero) ∧ durableCount state .inserted = 1 :=
  ⟨_, rfl, rfl, rfl⟩

end ImportRun

end Localmail
