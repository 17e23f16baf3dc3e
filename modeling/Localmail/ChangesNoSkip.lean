/-
What an acked cursor promises: every message below it was returned by some
poll.  The horizon is applied to each row by its transaction's start, while the
cursor is an id, so the promise needs the two orders to agree at every poll.
-/
import Localmail.ChangesFeed

namespace Localmail

/-- The feed skips nothing.  Below the stored cursor every committed message
of an account readable all along was delivered, and below the initial cursor
every one was visible when the subscription was created. -/
structure FeedComplete (state : FeedState) : Prop where
  delivered : ∀ cursor ∈ state.cursor, ∀ initial ∈ state.initial,
    ∀ row ∈ state.rows, state.Committed row →
      state.ReadableAllAlong row.accountId → initial < row.id →
        row.id ≤ cursor → row.id ∈ state.delivered
  visible : ∀ initial ∈ state.initial, ∀ row ∈ state.rows,
    state.Committed row → state.ReadableAllAlong row.accountId →
      row.id < initial → row.id ∈ state.visibleAtCreation

/-- The rows a poll lets the cursor move past. -/
def releasedRows (config : ServeConfig) (state : FeedState)
    (allowed : List Nat) : List FeedRow :=
  match state.cursor with
  | none => visibleRows config state allowed
  | some since => pageRows config state allowed since

/-- The account list a poll runs under, if the event is one. -/
def FeedEvent.polledAs : FeedEvent → Option (List Nat)
  | .poll allowed _ => some allowed
  | _ => none

/-- The condition on a poll: no row still inside the horizon, unless rolled
back, has a lower id than a row the poll releases. -/
def ReleasesPrefix (config : ServeConfig) (state : FeedState)
    (event : FeedEvent) : Prop :=
  ∀ allowed ∈ event.polledAs, ∀ row ∈ state.rows, ¬ state.Aborted row →
    row.accountId ∈ allowed → state.cursor.getD 0 < row.id →
      state.clock - config.changesSafeHorizon ≤ row.dateReceived →
        ∀ released ∈ releasedRows config state allowed, released.id ≤ row.id

instance (config : ServeConfig) (state : FeedState) (event : FeedEvent) :
    Decidable (ReleasesPrefix config state event) :=
  inferInstanceAs (Decidable (∀ allowed ∈ event.polledAs, _))

/-! ### The invariant -/

/-- The row's transaction is rolled back, or too old to commit. -/
def CannotCommit (config : ServeConfig) (state : FeedState) (row : FeedRow) :
    Prop :=
  ∃ tx ∈ state.txs row.tx, tx.status = .aborted ∨
    tx.status = .running ∧
      row.dateReceived + config.changesSafeHorizon ≤ state.clock

theorem CannotCommit.not_committed {config : ServeConfig} {state : FeedState}
    {row : FeedRow} (hcannot : CannotCommit config state row) :
    ¬ state.Committed row := by
  obtain ⟨tx, htx, hstatus⟩ := hcannot
  simp only [FeedState.Committed, Option.mem_def.mp htx, Option.map_some,
    Option.some.injEq]
  rcases hstatus with haborted | ⟨hrunning, -⟩
  · simp [haborted]
  · simp [hrunning]

/-- Everything between the initial cursor and `bound` is delivered or will
never be committed. -/
def SettledUpTo (config : ServeConfig) (state : FeedState) (bound : Nat) :
    Prop :=
  ∀ initial ∈ state.initial, ∀ row ∈ state.rows,
    state.ReadableAllAlong row.accountId → initial < row.id →
      row.id ≤ bound →
        row.id ∈ state.delivered ∨ CannotCommit config state row

structure FeedInv (config : ServeConfig) (state : FeedState) : Prop where
  nextId_pos : 0 < state.nextId
  id_pos : ∀ row ∈ state.rows, 0 < row.id
  id_lt : ∀ row ∈ state.rows, row.id < state.nextId
  stamped : ∀ row ∈ state.rows, ∃ tx ∈ state.txs row.tx,
    tx.start = row.dateReceived
  cursor_lt : ∀ cursor ∈ state.cursor, cursor < state.nextId
  returned_lt : ∀ cursor ∈ state.returned, cursor < state.nextId
  initial_lt : ∀ initial ∈ state.initial, initial < state.nextId
  created : state.cursor.isSome → state.initial.isSome
  notCreated : state.cursor = none →
    state.initial = none ∧ ∀ cursor ∈ state.returned, cursor = 0
  cursorSettled : ∀ cursor ∈ state.cursor, SettledUpTo config state cursor
  returnedSettled : ∀ cursor ∈ state.returned, SettledUpTo config state cursor
  visible : ∀ initial ∈ state.initial, ∀ row ∈ state.rows,
    state.ReadableAllAlong row.accountId → row.id < initial →
      row.id ∈ state.visibleAtCreation ∨ CannotCommit config state row

theorem FeedInv.feedComplete {config : ServeConfig} {state : FeedState}
    (hinv : FeedInv config state) : FeedComplete state where
  delivered := by
    intro cursor hcursor initial hinitial row hrow hcommitted hreadable
      habove hbelow
    exact (hinv.cursorSettled cursor hcursor initial hinitial row hrow hreadable
      habove hbelow).resolve_right fun hcannot =>
        hcannot.not_committed hcommitted
  visible := by
    intro initial hinitial row hrow hcommitted hreadable hbelow
    exact (hinv.visible initial hinitial row hrow hreadable
      hbelow).resolve_right fun hcannot => hcannot.not_committed hcommitted

theorem feedInv_empty (config : ServeConfig) (clock : Int) :
    FeedInv config (FeedState.empty clock) := by
  constructor <;> simp [FeedState.empty]

/-! ### The writers move -/

/-- What the inserting transactions and the clock can do: the subscription
and its history stay, new rows draw new ids, and a row that cannot commit
stays so. -/
structure WriterMoves (config : ServeConfig) (before after : FeedState) :
    Prop where
  nextId_le : before.nextId ≤ after.nextId
  rows : ∀ row ∈ after.rows, row ∈ before.rows ∨
    before.nextId ≤ row.id ∧ row.id < after.nextId
  stamped : ∀ row ∈ after.rows, ∃ tx ∈ after.txs row.tx,
    tx.start = row.dateReceived
  cannot : ∀ row ∈ before.rows, CannotCommit config before row →
    CannotCommit config after row
  cursor : after.cursor = before.cursor
  returned : after.returned = before.returned
  delivered : after.delivered = before.delivered
  polledAs : after.polledAs = before.polledAs
  initial : after.initial = before.initial
  visibleAtCreation : after.visibleAtCreation = before.visibleAtCreation

section Writers

variable {config : ServeConfig} {before after : FeedState}

theorem WriterMoves.old_of_lt (hmoves : WriterMoves config before after)
    {row : FeedRow} (hrow : row ∈ after.rows) (hlt : row.id < before.nextId) :
    row ∈ before.rows := by
  rcases hmoves.rows row hrow with hold | hnew
  · exact hold
  · omega

theorem WriterMoves.readable (hmoves : WriterMoves config before after)
    {accountId : Nat} (hreadable : after.ReadableAllAlong accountId) :
    before.ReadableAllAlong accountId := by
  rwa [FeedState.ReadableAllAlong, hmoves.polledAs] at hreadable

theorem SettledUpTo.move (hmoves : WriterMoves config before after)
    {bound : Nat} (hbound : bound < before.nextId)
    (hsettled : SettledUpTo config before bound) :
    SettledUpTo config after bound := by
  intro initial hinitial row hrow hreadable habove hbelow
  have hold := hmoves.old_of_lt hrow (Nat.lt_of_le_of_lt hbelow hbound)
  rw [hmoves.delivered]
  exact (hsettled initial (hmoves.initial ▸ hinitial) row hold
    (hmoves.readable hreadable) habove hbelow).imp_right
      (hmoves.cannot row hold)

theorem FeedInv.move (hinv : FeedInv config before)
    (hmoves : WriterMoves config before after) : FeedInv config after where
  nextId_pos := Nat.lt_of_lt_of_le hinv.nextId_pos hmoves.nextId_le
  id_pos := by
    intro row hrow
    rcases hmoves.rows row hrow with hold | hnew
    · exact hinv.id_pos row hold
    · exact Nat.lt_of_lt_of_le hinv.nextId_pos hnew.1
  id_lt := by
    intro row hrow
    rcases hmoves.rows row hrow with hold | hnew
    · exact Nat.lt_of_lt_of_le (hinv.id_lt row hold) hmoves.nextId_le
    · exact hnew.2
  stamped := hmoves.stamped
  cursor_lt := fun cursor hcursor => Nat.lt_of_lt_of_le
    (hinv.cursor_lt cursor (hmoves.cursor ▸ hcursor)) hmoves.nextId_le
  returned_lt := fun cursor hcursor => Nat.lt_of_lt_of_le
    (hinv.returned_lt cursor (hmoves.returned ▸ hcursor)) hmoves.nextId_le
  initial_lt := fun initial hinitial => Nat.lt_of_lt_of_le
    (hinv.initial_lt initial (hmoves.initial ▸ hinitial)) hmoves.nextId_le
  created := by
    rw [hmoves.cursor, hmoves.initial]
    exact hinv.created
  notCreated := by
    rw [hmoves.cursor, hmoves.initial, hmoves.returned]
    exact hinv.notCreated
  cursorSettled := by
    rw [hmoves.cursor]
    exact fun cursor hcursor => (hinv.cursorSettled cursor hcursor).move hmoves
      (hinv.cursor_lt cursor hcursor)
  returnedSettled := by
    rw [hmoves.returned]
    exact fun cursor hcursor => (hinv.returnedSettled cursor hcursor).move
      hmoves (hinv.returned_lt cursor hcursor)
  visible := by
    rw [hmoves.initial, hmoves.visibleAtCreation]
    intro initial hinitial row hrow hreadable hbelow
    have hold := hmoves.old_of_lt hrow
      (Nat.lt_trans hbelow (hinv.initial_lt initial hinitial))
    exact (hinv.visible initial hinitial row hold (hmoves.readable hreadable)
      hbelow).imp_right (hmoves.cannot row hold)

theorem tick_moves (hinv : FeedInv config before) (elapsed : Nat) :
    WriterMoves config before
      { before with clock := before.clock + elapsed } where
  nextId_le := Nat.le_refl _
  rows := fun _ hrow => Or.inl hrow
  stamped := hinv.stamped
  cannot := by
    rintro row - ⟨tx, htx, hstatus⟩
    refine ⟨tx, htx, hstatus.imp_right fun hold => ⟨hold.1, ?_⟩⟩
    have := hold.2
    dsimp only
    omega
  cursor := rfl
  returned := rfl
  delivered := rfl
  polledAs := rfl
  initial := rfl
  visibleAtCreation := rfl

/-- A transaction slot changes from `old` to `new`, and no row of it that
could not commit can commit now. -/
theorem update_moves (hinv : FeedInv config before) {tx : Nat}
    {changed : InsertTx}
    (hstart : ∀ old ∈ before.txs tx, old.start = changed.start)
    (hcannot : ∀ old ∈ before.txs tx, old.status = .running ∧
      (changed.status = .committed →
        before.clock < old.start + config.changesSafeHorizon)) :
    WriterMoves config before
      { before with txs := Function.update before.txs tx (some changed) } := by
  refine ⟨Nat.le_refl _, fun _ hrow => Or.inl hrow, ?_, ?_, rfl, rfl, rfl, rfl,
    rfl, rfl⟩
  · intro row hrow
    obtain ⟨old, hold, hstamp⟩ := hinv.stamped row hrow
    by_cases htx : row.tx = tx
    · subst htx
      exact ⟨changed, by simp, (hstart old hold).symm.trans hstamp⟩
    · exact ⟨old, by simpa [Function.update_of_ne htx] using hold, hstamp⟩
  · rintro row hrow ⟨old, hold, hstatus⟩
    by_cases htx : row.tx = tx
    · subst htx
      obtain ⟨hrunning, hwindow⟩ := hcannot old hold
      obtain ⟨stamped, hstamped, hstamp⟩ := hinv.stamped row hrow
      obtain rfl : stamped = old := Option.mem_unique hstamped hold
      have hexpired := (hstatus.resolve_left (by simp [hrunning])).2
      refine ⟨changed, by simp, ?_⟩
      cases hchanged : changed.status with
      | aborted => exact Or.inl rfl
      | running => exact Or.inr ⟨rfl, hexpired⟩
      | committed =>
          have := hwindow hchanged
          omega
    · exact ⟨old, by simpa [Function.update_of_ne htx] using hold, hstatus⟩

theorem insert_moves (hinv : FeedInv config before) {tx accountId gap : Nat}
    {start : Int} (htx : before.txs tx = some ⟨start, .running⟩) :
    WriterMoves config before { before with
      nextId := before.nextId + gap + 1
      rows := before.rows ++ [⟨before.nextId + gap, accountId, start, tx⟩] } := by
  refine ⟨by dsimp only; omega, ?_, ?_, fun _ _ hcannot => hcannot, rfl, rfl,
    rfl, rfl, rfl, rfl⟩
  · intro row hrow
    rcases List.mem_append.mp hrow with hold | hnew
    · exact Or.inl hold
    · rw [List.mem_singleton.mp hnew]
      exact Or.inr ⟨Nat.le_add_right _ _, Nat.lt_succ_self _⟩
  · intro row hrow
    rcases List.mem_append.mp hrow with hold | hnew
    · exact hinv.stamped row hold
    · rw [List.mem_singleton.mp hnew]
      exact ⟨_, htx, rfl⟩

end Writers

/-! ### Polls and acks -/

theorem exists_eq_maxId {rows : List FeedRow} (hpos : maxId rows ≠ 0) :
    ∃ row ∈ rows, row.id = maxId rows :=
  List.mem_map.mp (maxOrZero_mem hpos)

section Polls

variable {config : ServeConfig} {state : FeedState} {allowed : List Nat}
  {held : Nat}

theorem mem_rows_of_visible {row : FeedRow}
    (hrow : row ∈ visibleRows config state allowed) : row ∈ state.rows :=
  List.mem_of_mem_filter (List.mem_of_mem_filter hrow)

theorem mem_rows_of_released {row : FeedRow}
    (hrow : row ∈ releasedRows config state allowed) : row ∈ state.rows := by
  unfold releasedRows at hrow
  split at hrow
  · exact mem_rows_of_visible hrow
  · exact mem_rows_of_visible
      (List.mem_of_mem_filter (mem_of_mem_orderLimit hrow))

/-- Below a released row, a row is visible too or will never be committed. -/
theorem FeedInv.visible_or_cannot (hinv : FeedInv config state)
    (hmeets : ReleasesPrefix config state (.poll allowed held))
    {row released : FeedRow} (hrow : row ∈ state.rows)
    (haccount : row.accountId ∈ allowed) (habove : state.cursor.getD 0 < row.id)
    (hreleased : released ∈ releasedRows config state allowed)
    (hlt : row.id < released.id) :
    row ∈ visibleRows config state allowed ∨
      CannotCommit config state row := by
  obtain ⟨tx, htx, -⟩ := hinv.stamped row hrow
  by_cases haborted : tx.status = .aborted
  · exact Or.inr ⟨tx, htx, Or.inl haborted⟩
  have hnot : ¬ state.Aborted row := by
    simpa [FeedState.Aborted, Option.mem_def.mp htx] using haborted
  have hold : row.dateReceived < state.clock - config.changesSafeHorizon := by
    by_contra hyoung
    have := hmeets allowed rfl row hrow hnot haccount habove
      (Int.not_lt.mp hyoung) released hreleased
    omega
  cases hstatus : tx.status with
  | aborted => exact absurd hstatus haborted
  | running => exact Or.inr ⟨tx, htx, Or.inr ⟨hstatus, by omega⟩⟩
  | committed =>
      have hcommitted : state.Committed row := by
        simp [FeedState.Committed, Option.mem_def.mp htx, hstatus]
      refine Or.inl (List.mem_filter.mpr ⟨List.mem_filter.mpr ⟨hrow, ?_⟩, ?_⟩)
      · simpa using hcommitted
      · simpa using ⟨haccount, hold⟩

theorem readable_of_cons {accountId : Nat} {response : ChangesResponse}
    (hreadable : (recordPoll config state allowed response).ReadableAllAlong
      accountId) :
    accountId ∈ allowed ∧ state.ReadableAllAlong accountId :=
  ⟨hreadable allowed List.mem_cons_self,
    fun other hother => hreadable other (List.mem_cons_of_mem _ hother)⟩

/-- Any cursor but zero that a poll can return belongs to a row. -/
theorem FeedInv.maxId_lt (hinv : FeedInv config state) {rows : List FeedRow}
    (hsub : ∀ row ∈ rows, row ∈ state.rows) : maxId rows < state.nextId := by
  by_cases hzero : maxId rows = 0
  · rw [hzero]
    exact hinv.nextId_pos
  · obtain ⟨row, hrow, hid⟩ := exists_eq_maxId hzero
    exact hid ▸ hinv.id_lt row (hsub row hrow)

/-- A poll under a non-empty history keeps what was settled. -/
theorem SettledUpTo.recordPoll {bound : Nat} {response : ChangesResponse}
    (hsettled : SettledUpTo config state bound)
    (hinitial : (recordPoll config state allowed response).initial =
      state.initial) :
    SettledUpTo config (recordPoll config state allowed response) bound := by
  intro initial hmem row hrow hreadable habove hbelow
  exact (hsettled initial (hinitial ▸ hmem) row hrow
    (readable_of_cons hreadable).2 habove hbelow).imp_left
      (List.mem_append_right _)

/-- Without grants a poll answers zero and touches nothing. -/
theorem FeedInv.pollNoGrants (hinv : FeedInv config state) :
    FeedInv config (recordPoll config state [] ⟨[], 0, state.cursor⟩) := by
  have hinitial : (state.initial <|> state.cursor) = state.initial := by
    cases hcursor : state.cursor with
    | none => simp [(hinv.notCreated hcursor).1]
    | some cursor =>
        obtain ⟨initial, hsome⟩ :=
          Option.isSome_iff_exists.mp (hinv.created (by simp [hcursor]))
        simp [hsome]
  have hnobody : ∀ accountId, ¬ (recordPoll config state []
      ⟨[], 0, state.cursor⟩).ReadableAllAlong accountId :=
    fun accountId hreadable =>
      List.not_mem_nil (hreadable [] List.mem_cons_self)
  refine ⟨hinv.nextId_pos, hinv.id_pos, hinv.id_lt, hinv.stamped,
    hinv.cursor_lt, ?_, ?_, ?_, ?_, ?_, ?_, ?_⟩
  · intro cursor hcursor
    rcases List.mem_cons.mp hcursor with rfl | hold
    · exact hinv.nextId_pos
    · exact hinv.returned_lt cursor hold
  · exact fun initial hmem => hinv.initial_lt initial (hinitial ▸ hmem)
  · change state.cursor.isSome → (state.initial <|> state.cursor).isSome
    rw [hinitial]
    exact hinv.created
  · change state.cursor = none → (state.initial <|> state.cursor) = none ∧ _
    rw [hinitial]
    intro hnone
    refine ⟨(hinv.notCreated hnone).1, fun cursor hcursor => ?_⟩
    rcases List.mem_cons.mp hcursor with rfl | hold
    · rfl
    · exact (hinv.notCreated hnone).2 cursor hold
  · intro cursor _ initial _ row _ hreadable
    exact absurd hreadable (hnobody row.accountId)
  · intro cursor _ initial _ row _ hreadable
    exact absurd hreadable (hnobody row.accountId)
  · intro initial _ row _ hreadable
    exact absurd hreadable (hnobody row.accountId)

/-- The first poll starts the subscription at the tip. -/
theorem FeedInv.pollCreate (hinv : FeedInv config state)
    (hmeets : ReleasesPrefix config state (.poll allowed held))
    (hcursor : state.cursor = none) {tip : Nat}
    (htip : currentTip config state allowed = tip) :
    FeedInv config (recordPoll config state allowed ⟨[], tip, some tip⟩) := by
  obtain ⟨hinitial, hzero⟩ := hinv.notCreated hcursor
  have hafter : (recordPoll config state allowed
      ⟨[], tip, some tip⟩).initial = some tip := by
    simp [recordPoll, hinitial]
  have htipLt : tip < state.nextId :=
    htip ▸ hinv.maxId_lt fun _ => mem_rows_of_visible
  have hsettled : ∀ bound ≤ tip, SettledUpTo config
      (recordPoll config state allowed ⟨[], tip, some tip⟩) bound := by
    intro bound hbound initial hmem row _ _ habove hbelow
    rw [hafter] at hmem
    cases hmem
    omega
  refine ⟨hinv.nextId_pos, hinv.id_pos, hinv.id_lt, hinv.stamped, ?_, ?_, ?_,
    ?_, ?_, ?_, ?_, ?_⟩
  · intro cursor hmem
    cases hmem
    exact htipLt
  · intro cursor hmem
    rcases List.mem_cons.mp hmem with rfl | hold
    · exact htipLt
    · exact hinv.returned_lt cursor hold
  · intro initial hmem
    rw [hafter] at hmem
    cases hmem
    exact htipLt
  · simp [hafter]
  · intro hnone
    cases hnone
  · intro cursor hmem
    cases hmem
    exact hsettled tip (Nat.le_refl _)
  · intro cursor hmem
    rcases List.mem_cons.mp hmem with rfl | hold
    · exact hsettled _ (Nat.le_refl _)
    · rw [hzero cursor hold]
      exact hsettled 0 (Nat.zero_le _)
  · intro initial hmem row hrow hreadable hbelow
    rw [hafter] at hmem
    cases hmem
    have hpos : maxId (visibleRows config state allowed) ≠ 0 := by
      change currentTip config state allowed ≠ 0
      omega
    obtain ⟨released, hreleased, hid⟩ := exists_eq_maxId hpos
    have hvisible := hinv.visible_or_cannot hmeets hrow
      (readable_of_cons hreadable).1
      (by simpa [hcursor] using hinv.id_pos row hrow)
      (by simpa [releasedRows, hcursor] using hreleased)
      (hid.trans htip ▸ hbelow)
    refine hvisible.imp_left fun hmem => ?_
    simp only [recordPoll, hinitial, ↓reduceIte]
    exact List.mem_map_of_mem hmem

/-- Past the cursor, what does not come after the last row of a page is on the
page or will never be committed. -/
theorem FeedInv.mem_page_or_cannot (hinv : FeedInv config state)
    (hmeets : ReleasesPrefix config state (.poll allowed held)) {since : Nat}
    (hcursor : state.cursor = some since) {row last : FeedRow}
    (hrow : row ∈ state.rows) (haccount : row.accountId ∈ allowed)
    (habove : since < row.id)
    (hlast : last ∈ pageRows config state allowed since)
    (hle : row.id ≤ last.id) :
    row.id ∈ (pageRows config state allowed since).map FeedRow.id ∨
      CannotCommit config state row := by
  rcases Nat.eq_or_lt_of_le hle with heq | hlt
  · rw [heq]
    exact Or.inl (List.mem_map_of_mem hlast)
  · have hvisible := hinv.visible_or_cannot hmeets hrow haccount
      (by simpa [hcursor] using habove)
      (by simpa [releasedRows, hcursor] using hlast) hlt
    refine hvisible.imp_left fun hmem => List.mem_map_of_mem ?_
    exact mem_orderLimit_of_not_rel hlast
      (List.mem_filter.mpr ⟨hmem, by simpa using habove⟩)
      (Nat.not_le.mpr hlt)

/-- A poll of an existing subscription settles everything up to the cursor it
returns. -/
theorem FeedInv.pollPage (hinv : FeedInv config state)
    (hmeets : ReleasesPrefix config state (.poll allowed held)) {since : Nat}
    (hcursor : state.cursor = some since) {rows : List FeedRow}
    (hrows : pageRows config state allowed since = rows) :
    FeedInv config (recordPoll config state allowed
      ⟨rows, if maxId rows = 0 then since else maxId rows, some since⟩) := by
  obtain ⟨created, hcreated⟩ :=
    Option.isSome_iff_exists.mp (hinv.created (by simp [hcursor]))
  generalize hnext : (if maxId rows = 0 then since else maxId rows) = next
  have hafter : (recordPoll config state allowed
      ⟨rows, next, some since⟩).initial = state.initial := by
    simp [recordPoll, hcreated]
  have hreleasedRows : releasedRows config state allowed = rows := by
    simp [releasedRows, hcursor, hrows]
  have hnextLt : next < state.nextId := by
    subst hnext
    split
    · exact hinv.cursor_lt since hcursor
    · exact hinv.maxId_lt fun row hrow =>
        mem_rows_of_released (hreleasedRows ▸ hrow)
  have hsince := (hinv.cursorSettled since hcursor).recordPoll hafter
  refine ⟨hinv.nextId_pos, hinv.id_pos, hinv.id_lt, hinv.stamped, ?_, ?_, ?_,
    ?_, ?_, ?_, ?_, ?_⟩
  · exact fun cursor hmem => hinv.cursor_lt cursor (hcursor ▸ hmem)
  · intro cursor hmem
    rcases List.mem_cons.mp hmem with rfl | hold
    · exact hnextLt
    · exact hinv.returned_lt cursor hold
  · rw [hafter]
    exact hinv.initial_lt
  · simp [hafter, hcreated]
  · intro hnone
    cases hnone
  · intro cursor hmem
    cases hmem
    exact hsince
  · intro cursor hmem
    rcases List.mem_cons.mp hmem with rfl | hold
    · intro initial hinitial row hrow hreadable habove hbelow
      by_cases hle : row.id ≤ since
      · exact hsince initial hinitial row hrow hreadable habove hle
      have hpos : maxId rows ≠ 0 := by
        intro hzero
        simp only [hzero, ↓reduceIte] at hnext
        change row.id ≤ cursor at hbelow
        omega
      simp only [hpos, ↓reduceIte] at hnext
      obtain ⟨last, hlast, hid⟩ := exists_eq_maxId hpos
      refine (hinv.mem_page_or_cannot hmeets hcursor hrow
        (readable_of_cons hreadable).1 (Nat.not_le.mp hle) (hrows ▸ hlast)
        (by omega)).imp_left fun hpage => List.mem_append_left _ ?_
      exact hrows ▸ hpage
    · exact (hinv.returnedSettled cursor hold).recordPoll hafter
  · rw [hafter]
    intro initial hmem row hrow hreadable hbelow
    refine (hinv.visible initial hmem row hrow (readable_of_cons hreadable).2
      hbelow).imp_left fun hvisible => ?_
    simpa [recordPoll, hcreated] using hvisible

theorem FeedInv.poll (hinv : FeedInv config state)
    (hmeets : ReleasesPrefix config state (.poll allowed held))
    {response : ChangesResponse}
    (hresponse : changes config state allowed held = some response) :
    FeedInv config (recordPoll config state allowed response) := by
  unfold changes at hresponse
  split at hresponse
  · rename_i hnoGrants
    cases hresponse
    exact hnoGrants ▸ hinv.pollNoGrants
  · split at hresponse
    · rename_i hcursor
      split at hresponse
      · cases hresponse
      · cases hresponse
        exact hinv.pollCreate hmeets hcursor rfl
    · rename_i since hcursor
      cases hresponse
      exact hinv.pollPage hmeets hcursor rfl

/-- An ack moves the stored cursor to one that is settled. -/
theorem FeedInv.ack (hinv : FeedInv config state) {cursor stored : Nat}
    (hreturned : cursor ∈ state.returned)
    (hack : Localmail.ack config state cursor held = some stored) :
    FeedInv config { state with
      cursor := some stored, initial := state.initial <|> some stored } := by
  unfold Localmail.ack at hack
  split at hack
  · cases hack
  split at hack
  · rename_i hcursor
    split at hack
    · cases hack
    cases hack
    -- Before the subscription exists only zero was ever returned.
    obtain ⟨hinitial, hzero⟩ := hinv.notCreated hcursor
    have hafter : (state.initial <|> some cursor) = some 0 := by
      simp [hinitial, hzero cursor hreturned]
    rw [hafter, hzero cursor hreturned]
    have hsettled : SettledUpTo config
        { state with cursor := some 0, initial := some 0 } 0 := by
      intro initial _ row hrow _ _ hbelow
      exact absurd (hinv.id_pos row hrow) (Nat.not_lt.mpr hbelow)
    refine ⟨hinv.nextId_pos, hinv.id_pos, hinv.id_lt, hinv.stamped, ?_,
      hinv.returned_lt, ?_, fun _ => rfl, ?_, ?_, ?_, ?_⟩
    · rintro _ ⟨⟩
      exact hinv.nextId_pos
    · rintro _ ⟨⟩
      exact hinv.nextId_pos
    · rintro ⟨⟩
    · rintro _ ⟨⟩
      exact hsettled
    · intro other hother
      rw [hzero other hother]
      exact hsettled
    · rintro _ ⟨⟩ row _ _ hbelow
      exact absurd hbelow (Nat.not_lt_zero _)
  · rename_i since hcursor
    cases hack
    obtain ⟨created, hcreated⟩ :=
      Option.isSome_iff_exists.mp (hinv.created (by simp [hcursor]))
    have hafter : (state.initial <|> some (max since cursor)) =
        state.initial := by
      simp [hcreated]
    rw [hafter]
    refine ⟨hinv.nextId_pos, hinv.id_pos, hinv.id_lt, hinv.stamped, ?_,
      hinv.returned_lt, hinv.initial_lt, ?_, ?_, ?_, hinv.returnedSettled,
      hinv.visible⟩
    · rintro _ ⟨⟩
      exact Nat.max_lt.mpr ⟨hinv.cursor_lt since hcursor,
        hinv.returned_lt cursor hreturned⟩
    · exact fun _ => hinv.created (by simp [hcursor])
    · rintro ⟨⟩
    · rintro _ ⟨⟩
      rcases Nat.le_total since cursor with hle | hle
      · rw [Nat.max_eq_right hle]
        exact hinv.returnedSettled cursor hreturned
      · rw [Nat.max_eq_left hle]
        exact hinv.cursorSettled since hcursor

end Polls

/-! ### Every interleaving -/

theorem FeedInv.step {config : ServeConfig} {state next : FeedState}
    {event : FeedEvent} (hinv : FeedInv config state)
    (hmeets : ReleasesPrefix config state event)
    (hstep : feedStep config state event = some next) :
    FeedInv config next := by
  cases event with
  | tick elapsed =>
      cases hstep
      exact hinv.move (tick_moves hinv elapsed)
  | start tx =>
      simp only [feedStep] at hstep
      split at hstep
      · rename_i hnone
        cases hstep
        exact hinv.move (update_moves hinv (by simp [hnone]) (by simp [hnone]))
      · cases hstep
  | insert tx accountId gap =>
      simp only [feedStep] at hstep
      split at hstep
      · rename_i start htx
        cases hstep
        exact hinv.move (insert_moves hinv htx)
      · cases hstep
  | commit tx =>
      simp only [feedStep] at hstep
      split at hstep
      · rename_i start htx
        split at hstep
        · rename_i hwindow
          cases hstep
          refine hinv.move (update_moves hinv (by simp [htx]) ?_)
          intro old hold
          rw [htx] at hold
          cases hold
          exact ⟨rfl, fun _ => hwindow⟩
        · cases hstep
      · cases hstep
  | abort tx =>
      simp only [feedStep] at hstep
      split at hstep
      · rename_i start htx
        cases hstep
        exact hinv.move (update_moves hinv (by simp [htx]) (by simp [htx]))
      · cases hstep
  | poll allowed held =>
      simp only [feedStep, Option.map_eq_some_iff] at hstep
      obtain ⟨response, hresponse, rfl⟩ := hstep
      exact hinv.poll hmeets hresponse
  | ack cursor held =>
      simp only [feedStep] at hstep
      split at hstep
      · rename_i hreturned
        simp only [Option.map_eq_some_iff] at hstep
        obtain ⟨stored, hack, rfl⟩ := hstep
        exact hinv.ack hreturned hack
      · cases hstep

/-- The feed never skips a message: from an empty archive, in every
interleaving whose polls release ids in order, the stored cursor only covers
what was delivered. -/
theorem changes_never_skips (config : ServeConfig) (clock : Int)
    (state : FeedState)
    (hreach : GuardedReach (feedStep config) (ReleasesPrefix config)
      (FeedState.empty clock) state) :
    FeedComplete state := by
  have hinv : FeedInv config state :=
    hreach.invariant (feedInv_empty config clock)
      (fun _ _ _ hbefore hmeets hstep => hbefore.step hmeets hstep)
  exact hinv.feedComplete

namespace FeedWitness

/-- A horizon of ten time units. -/
def config : ServeConfig := ⟨10, 8⟩

/-- The older transaction draws the higher id and leaves the horizon first. -/
def skippingRun : List FeedEvent :=
  [.poll [1] 0, .start 0, .tick 5, .start 1, .insert 1 1 0, .insert 0 1 0,
    .commit 0, .commit 1, .tick 6, .poll [1] 1, .ack 2 1]

/-- The same transactions drawing their ids in the order of their starts. -/
def orderedRun : List FeedEvent :=
  [.poll [1] 0, .start 0, .tick 5, .start 1, .insert 0 1 0, .insert 1 1 0,
    .commit 1, .commit 0, .tick 6, .poll [1] 1, .ack 1 1, .tick 5,
    .poll [1] 1, .ack 2 1]

end FeedWitness

open FeedWitness in
/-- The horizon alone is not enough: the feed can release an id above one that
is still to come. -/
theorem changes_skips_younger_lower_id :
    ¬ ∀ (config : ServeConfig) (clock : Int) (state : FeedState),
      Reach (feedStep config) (FeedState.empty clock) state →
        FeedComplete state := by
  intro hclaim
  obtain ⟨final, hfinal, row, hrow, hcommitted, hreadable, hcursor, hinitial,
      habove, hbelow, hmissing⟩ : ∃ final,
      replayGuarded (feedStep config) (fun _ _ => True) (FeedState.empty 0)
          skippingRun = some final ∧
        ∃ row ∈ final.rows, final.Committed row ∧
          final.ReadableAllAlong row.accountId ∧ final.cursor = some 2 ∧
          final.initial = some 0 ∧ 0 < row.id ∧ row.id ≤ 2 ∧
          row.id ∉ final.delivered := by
    refine ⟨_, rfl, ⟨1, 1, 5, 1⟩, ?_⟩
    decide
  exact hmissing ((hclaim config 0 final
    (GuardedReach.of_replay skippingRun hfinal)).delivered 2 hcursor 0 hinitial
      row hrow hcommitted hreadable habove hbelow)

open FeedWitness in
theorem changes_never_skips_orderedRun :
    ∃ final, replayGuarded (feedStep config) (ReleasesPrefix config)
        (FeedState.empty 0) orderedRun = some final ∧
      final.cursor = some 2 ∧ FeedComplete final := by
  refine ⟨_, rfl, rfl, ?_⟩
  exact changes_never_skips config 0 _ (GuardedReach.of_replay orderedRun rfl)

end Localmail
