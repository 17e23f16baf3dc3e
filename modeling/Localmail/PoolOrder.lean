/-
The order of a ranked pool.  Fusion adds up the contributions to a message in
whatever order the arms come, the relevance key orders the fused hits strictly,
and so the pages of a pool show the best hits by that key whether the pool was
cut or fitted, and for every order of the arms.
-/
import Localmail.KeyedRows
import Localmail.RankSession
import Mathlib.Algebra.Group.Basic
import Mathlib.Algebra.Group.Nat.Defs

namespace Localmail

universe u v

/-! ### Sorting by a key -/

section Sorting

variable {α : Type u} {β : Type u} {κ : Type v} [LinearOrder κ]

theorem sortDescending_perm (key : α → κ) (rows : List α) :
    (sortDescending key rows).Perm rows :=
  List.perm_insertionSort _ _

theorem sortDescending_sorted (key : α → κ) (rows : List α) :
    (sortDescending key rows).Pairwise (NotAfter (· > ·) key) :=
  List.pairwise_insertionSort _ _

theorem sortDescending_map (key : β → κ) (view : α → β) (rows : List α) :
    (sortDescending (fun row => key (view row)) rows).map view =
      sortDescending key (rows.map view) :=
  List.map_insertionSort _ _ _ _ fun _ _ _ _ => Iff.rfl

theorem sortDescending_of_sorted {key : α → κ} {rows : List α}
    (hsorted : rows.Pairwise (NotAfter (· > ·) key)) :
    sortDescending key rows = rows :=
  hsorted.insertionSort_eq

theorem sortDescending_strict {key : α → κ} {rows : List α}
    (hdistinct : (rows.map key).Nodup) :
    (sortDescending key rows).Pairwise fun row later => key later < key row := by
  have hkeys : (sortDescending key rows).Pairwise
      fun row later => key row ≠ key later :=
    List.pairwise_map.mp
      (((sortDescending_perm key rows).map key).nodup_iff.mpr hdistinct)
  refine ((sortDescending_sorted key rows).and hkeys).imp ?_
  rintro row later ⟨hle, hne⟩
  exact lt_of_le_of_ne (not_lt.mp hle) hne.symm

/-- Rows with distinct keys are sorted the same from every order. -/
theorem sortDescending_eq_of_perm {key : α → κ} {rows others : List α}
    (hdistinct : (rows.map key).Nodup) (hperm : rows.Perm others) :
    sortDescending key rows = sortDescending key others := by
  have hsame : (sortDescending key rows).Perm (sortDescending key others) :=
    ((sortDescending_perm key rows).trans hperm).trans
      (sortDescending_perm key others).symm
  refine hsame.eq_of_pairwise ?_ (sortDescending_sorted key rows)
    (sortDescending_sorted key others)
  intro row other hrow hother hle hge
  have hkey : key row = key other :=
    le_antisymm (not_lt.mp hge) (not_lt.mp hle)
  exact List.inj_on_of_nodup_map hdistinct
    ((sortDescending_perm key rows).mem_iff.mp hrow)
    (hperm.mem_iff.mpr ((sortDescending_perm key others).mem_iff.mp hother))
    hkey

/-- Inserting in order and then filtering is filtering first. -/
theorem filter_orderedInsert {before : α → α → Prop} [DecidableRel before]
    [IsTrans α before] {rows : List α} (hsorted : rows.Pairwise before) (row : α)
    (keeps : α → Bool) :
    (rows.orderedInsert before row).filter keeps =
      if keeps row then (rows.filter keeps).orderedInsert before row
      else rows.filter keeps := by
  induction rows with
  | nil => by_cases hrow : keeps row <;> simp [hrow]
  | cons first rest ih =>
      obtain ⟨hfirst, hrest⟩ := List.pairwise_cons.mp hsorted
      rw [List.orderedInsert_cons]
      by_cases hbefore : before row first
      · rw [if_pos hbefore, List.filter_cons]
        by_cases hrow : keeps row
        · rw [if_pos hrow, if_pos hrow]
          -- what is kept comes after `first`, and so after `row`
          have hall : ∀ later ∈ (first :: rest).filter keeps,
              before row later := by
            intro later hlater
            obtain rfl | hin := List.mem_cons.mp (List.mem_of_mem_filter hlater)
            · exact hbefore
            · exact IsTrans.trans _ _ _ hbefore (hfirst later hin)
          cases hkept : (first :: rest).filter keeps with
          | nil => rfl
          | cons next others =>
              rw [hkept] at hall
              exact (List.orderedInsert_cons_of_le _ _
                (hall next List.mem_cons_self)).symm
        · rw [if_neg hrow, if_neg hrow]
      · rw [if_neg hbefore, List.filter_cons, ih hrest]
        by_cases hrow : keeps row <;> by_cases hkeep : keeps first <;>
          simp [hrow, hkeep, hbefore]

/-- The sort is stable, so it orders some of the rows as it orders all. -/
theorem sortDescending_filter (key : α → κ) (keeps : α → Bool)
    (rows : List α) :
    (sortDescending key rows).filter keeps =
      sortDescending key (rows.filter keeps) := by
  induction rows with
  | nil => rfl
  | cons row rest ih =>
      have hinsert := filter_orderedInsert (sortDescending_sorted key rest) row
        keeps
      rw [ih] at hinsert
      rw [sortDescending, List.insertionSort_cons]
      by_cases hrow : keeps row
      · rw [if_pos hrow] at hinsert
        rw [List.filter_cons_of_pos hrow]
        exact hinsert
      · rw [if_neg hrow] at hinsert
        rw [List.filter_cons_of_neg hrow]
        exact hinsert

end Sorting

/-! ### Fusion -/

section Fusion

variable {σ : Type v}

/-- What the order depends on: the id of a message and its score. -/
def FusedHit.scored (hit : FusedHit σ) : Nat × σ :=
  (hit.messageId, hit.rrfScore)

def SearchResult.scored (row : SearchResult σ) : Nat × σ :=
  (row.messageId, row.score)

def AggEntry.scored (entry : AggEntry σ) : Nat × σ :=
  (entry.messageId, entry.score)

/-- The score of each message after one more hit. -/
def addScore [Add σ] (config : RankConfig σ) (scores : Nat → Option σ)
    (hit : ArmHit) : Nat → Option σ :=
  let contrib := config.reciprocal (config.rrfK + hit.rank)
  Function.update scores hit.messageId
    (match scores hit.messageId with
      | none => some contrib
      | some score => some (score + contrib))

/-- The score aggregated for a message. -/
def scoreIn (agg : List (AggEntry σ)) (messageId : Nat) : Option σ :=
  (agg.find? fun entry => entry.messageId = messageId).map AggEntry.score

/-- Hits may be counted in any order. -/
theorem addScore_comm [AddCommSemigroup σ] (config : RankConfig σ)
    (scores : Nat → Option σ) (hit other : ArmHit) :
    addScore config (addScore config scores hit) other =
      addScore config (addScore config scores other) hit := by
  by_cases hsame : hit.messageId = other.messageId
  · simp only [addScore, hsame, Function.update_self, Function.update_idem]
    cases scores other.messageId with
    | none => simp [add_comm]
    | some score => simp [add_right_comm]
  · have hne := Ne.symm hsame
    simp only [addScore, Function.update_of_ne hsame,
      Function.update_of_ne hne]
    rw [Function.update_comm hsame]

theorem scoreIn_eq_none_iff {agg : List (AggEntry σ)} {messageId : Nat} :
    scoreIn agg messageId = none ↔ messageId ∉ agg.map AggEntry.messageId := by
  simp [scoreIn]

theorem mem_scored_iff {agg : List (AggEntry σ)}
    (hnodup : (agg.map AggEntry.messageId).Nodup) (messageId : Nat) (score : σ) :
    (messageId, score) ∈ agg.map AggEntry.scored ↔
      scoreIn agg messageId = some score := by
  simp only [List.mem_map, scoreIn, Option.map_eq_some_iff,
    find?_eq_some_iff_mem hnodup, AggEntry.scored, Prod.mk.injEq, and_assoc]

variable [LinearOrder σ]

theorem scoreIn_addHit [Add σ] (config : RankConfig σ) (arm : Nat)
    (agg : List (AggEntry σ)) (hit : ArmHit) :
    scoreIn (addHit config arm agg hit) = addScore config (scoreIn agg) hit := by
  funext messageId
  by_cases hknown : hit.messageId ∈ agg.map AggEntry.messageId
  · have hkept : (fun entry : AggEntry σ => decide (entry.messageId = messageId)) ∘
        (fun entry => if entry.messageId = hit.messageId then
          entry.add arm hit (config.reciprocal (config.rrfK + hit.rank))
          else entry) = fun entry => decide (entry.messageId = messageId) := by
      funext entry
      simp only [Function.comp_apply]
      split <;> rfl
    simp only [scoreIn, addHit, if_pos hknown, List.find?_map, hkept]
    by_cases hsame : messageId = hit.messageId
    · subst hsame
      cases hfind : agg.find? fun entry => entry.messageId = hit.messageId with
      | none =>
          exact absurd hknown (scoreIn_eq_none_iff.mp (by simp [scoreIn, hfind]))
      | some entry =>
          simp [addScore, scoreIn, hfind, key_of_find? hfind, AggEntry.add]
    · cases hfind : agg.find? fun entry => entry.messageId = messageId with
      | none => simp [addScore, scoreIn, hfind, hsame]
      | some entry =>
          simp [addScore, scoreIn, hfind, key_of_find? hfind, hsame]
  · have hnone := scoreIn_eq_none_iff.mpr hknown
    simp only [addScore, hnone, addHit, if_neg hknown]
    by_cases hsame : messageId = hit.messageId
    · subst hsame
      rw [scoreIn] at hnone
      simp [scoreIn, List.find?_append, Option.map_eq_none_iff.mp hnone]
    · simp [scoreIn, List.find?_append, hsame, Ne.symm hsame]

/-- The scores after all arms depend on their hits alone. -/
theorem scoreIn_foldl [Add σ] (config : RankConfig σ)
    (arms : List (List ArmHit)) (first : Nat) (agg : List (AggEntry σ)) :
    scoreIn ((arms.zipIdx first).foldl
        (fun agg arm => arm.1.foldl (addHit config arm.2) agg) agg) =
      arms.flatten.foldl (addScore config) (scoreIn agg) := by
  have harm : ∀ (arm : Nat) (hits : List ArmHit) (agg : List (AggEntry σ)),
      scoreIn (hits.foldl (addHit config arm) agg) =
        hits.foldl (addScore config) (scoreIn agg) := by
    intro arm hits
    induction hits with
    | nil => exact fun _ => rfl
    | cons hit rest ih =>
        intro agg
        rw [List.foldl_cons, List.foldl_cons, ih, scoreIn_addHit]
  induction arms generalizing first agg with
  | nil => rfl
  | cons hits rest ih =>
      rw [List.zipIdx_cons, List.foldl_cons, ih, harm, List.flatten_cons,
        List.foldl_append]

/-- The arms may come in any order. -/
theorem scoreIn_aggregate_of_perm [AddCommSemigroup σ] (config : RankConfig σ)
    {arms others : List (List ArmHit)} (hperm : arms.Perm others) :
    scoreIn (aggregate config arms) = scoreIn (aggregate config others) := by
  rw [aggregate, aggregate, scoreIn_foldl, scoreIn_foldl]
  apply hperm.flatten.foldl_eq'
  intro hit _ other _ scores
  exact addScore_comm config scores hit other

/-- Fusion gives the same messages, with the same scores and in the same order,
whatever the order of the arms. -/
theorem rrfFuse_scored_of_perm [AddCommSemigroup σ] (config : RankConfig σ)
    {arms others : List (List ArmHit)} (hperm : arms.Perm others) :
    (rrfFuse config arms).map FusedHit.scored =
      (rrfFuse config others).map FusedHit.scored := by
  have hids : ∀ arms, ((aggregate config arms).map AggEntry.scored).Nodup := by
    intro arms
    have hnodup := aggregate_nodup config arms
    apply List.Nodup.of_map Prod.fst
    rwa [List.map_map]
  have hscored : ((aggregate config arms).map AggEntry.scored).Perm
      ((aggregate config others).map AggEntry.scored) := by
    rw [List.perm_ext_iff_of_nodup (hids arms) (hids others)]
    rintro ⟨messageId, score⟩
    rw [mem_scored_iff (aggregate_nodup config arms),
      mem_scored_iff (aggregate_nodup config others),
      scoreIn_aggregate_of_perm config hperm]
  have hfused : ∀ arms, (rrfFuse config arms).map FusedHit.scored =
      sortDescending (fun row : Nat × σ => toLex (row.2, row.1))
        ((aggregate config arms).map AggEntry.scored) := by
    intro arms
    have hview := sortDescending_map (fun row : Nat × σ => toLex (row.2, row.1))
      FusedHit.scored ((aggregate config arms).map AggEntry.toFused)
    rw [List.map_map] at hview
    exact hview
  rw [hfused, hfused]
  apply sortDescending_eq_of_perm _ hscored
  apply (hids arms).map
  intro row other hkey
  simpa [Prod.ext_iff, and_comm] using hkey

end Fusion

/-! ### The pool -/

section Pages

variable {ρ : Type u} {σ : Type v} [LinearOrder σ]

def MessageInfo.date (info : MessageInfo) : Option Int :=
  info.internalDate <|> info.dateSent

/-- A retrieval of these arms, with no reranker, while the messages stand as
they are in `table`. -/
def settledRetrieval (arms : List (List ArmHit)) (table : Nat → MessageInfo) :
    Retrieval Unit σ where
  resolve := id
  arms := fun _ _ => arms
  sortDates := fun messageId => (table messageId).date
  messages := fun messageId => some (table messageId)
  rerank := none

/-- The best hits by the relevance key first. -/
def ranked (table : Nat → MessageInfo) (fused : List (FusedHit σ)) :
    List (FusedHit σ) :=
  sortDescending (cutKey fun messageId => (table messageId).date) fused

/-- All pages of a pool one after another: the ids and scores of their rows. -/
def poolRows (entry : PoolEntry ρ σ) : List (Nat × σ) :=
  (List.range (maxPage entry.hydrated.length entry.pageSize)).flatMap
    fun index =>
      match continuePage entry entry.userId (index + 1) with
      | .ok answer => answer.results.map SearchResult.scored
      | .error _ => []

/-- Whether the pool is cut or fits, sorting it gives the best hits. -/
theorem sortDescending_cutPool (table : Nat → MessageInfo)
    (fused : List (FusedHit σ)) (limit : Nat) :
    ranked table (cutPool (fun messageId => (table messageId).date) fused
        limit) = (ranked table fused).take limit := by
  unfold cutPool
  split
  · rename_i hfits
    rw [List.take_of_length_le]
    rw [ranked, (sortDescending_perm _ _).length_eq]
    exact hfits
  · apply sortDescending_of_sorted
    exact (sortDescending_sorted _ fused).sublist (List.take_sublist _ _)

omit [LinearOrder σ] in
theorem hydrate_settled (table : Nat → MessageInfo)
    (fused : List (FusedHit σ)) :
    hydrate (fun messageId => some (table messageId)) fused =
      fused.map fun hit => ⟨hit, table hit.messageId⟩ := by
  simp [hydrate]

/-- Without a reranker the served order is the order of the pool cut. -/
theorem orderedPool_settled (table : Nat → MessageInfo)
    (fused : List (FusedHit σ)) :
    let hydrated := hydrate (fun messageId => some (table messageId)) fused
    orderedPool hydrated (poolScores none hydrated) .rank =
      (ranked table fused).map fun hit =>
        (⟨hit, table hit.messageId⟩, hit.rrfScore) := by
  intro hydrated
  have hzip : hydrated.zip (poolScores none hydrated) =
      fused.map fun hit => (⟨hit, table hit.messageId⟩, hit.rrfScore) := by
    simp only [hydrated, poolScores, hydrate_settled, List.map_map]
    rw [List.zip_map']
    rfl
  rw [orderedPool, hzip]
  exact (sortDescending_map servedKey
    (fun hit : FusedHit σ => ((⟨hit, table hit.messageId⟩ : HydratedHit σ),
      hit.rrfScore)) fused).symm

/-! ### The pages -/

theorem flatMap_windows {α : Type u} (rows : List α) (size count : Nat) :
    ((List.range count).flatMap fun index =>
      (rows.drop (index * size)).take size) = rows.take (count * size) := by
  induction count with
  | zero => simp
  | succ count ih =>
      rw [List.range_succ, List.flatMap_append, ih, List.flatMap_singleton,
        Nat.succ_mul, List.take_add]

/-- Page `page` of a fresh pool is answered with its rows; there are no pages
but the first to the last. -/
theorem continuePage_fresh {entry : PoolEntry ρ σ}
    (hfresh : entry.firstPage = 1) (page : Nat) :
    continuePage entry entry.userId page =
      if 1 ≤ page ∧ page ≤ maxPage entry.hydrated.length entry.pageSize then
        .ok (pageAnswer entry page)
      else .error .pageOutOfPool := by
  have hearlier : ¬(1 ≤ page ∧ page < 1) := by omega
  simp only [continuePage, hfresh, ne_eq, not_true_eq_false, and_false,
    ↓reduceIte, hearlier, Nat.add_sub_cancel]
  split <;> split <;> first | rfl | omega

theorem buildResults_scored (entry : PoolEntry ρ σ) (page : Nat) :
    (buildResults entry page).map SearchResult.scored =
      ((entry.ordered.map fun row => (row.1.fused.messageId, row.2)).drop
        ((page - 1) * entry.pageSize)).take entry.pageSize := by
  rw [buildResults, ← List.map_drop, ← List.map_take]
  apply List.ext_getElem
  · simp
  · intro index hleft hright
    simp [toSearchResult, SearchResult.scored]

/-- The pages of a fresh pool make up its served order. -/
theorem poolRows_eq {entry : PoolEntry ρ σ} (hfresh : entry.firstPage = 1)
    (hsize : 1 ≤ entry.pageSize) :
    poolRows entry = entry.ordered.map fun row =>
      (row.1.fused.messageId, row.2) := by
  have hpage : ∀ index ∈ List.range
        (maxPage entry.hydrated.length entry.pageSize),
      (match continuePage entry entry.userId (index + 1) with
        | .ok answer => answer.results.map SearchResult.scored
        | .error _ => []) =
      ((entry.ordered.map fun row => (row.1.fused.messageId, row.2)).drop
        (index * entry.pageSize)).take entry.pageSize := by
    intro index hindex
    have hin : 1 ≤ index + 1 ∧
        index + 1 ≤ maxPage entry.hydrated.length entry.pageSize :=
      ⟨Nat.le_add_left 1 index, List.mem_range.mp hindex⟩
    rw [continuePage_fresh hfresh, if_pos hin]
    simpa [pageAnswer, hfresh] using buildResults_scored entry (index + 1)
  rw [poolRows, List.flatMap_congr hpage, flatMap_windows]
  apply List.take_of_length_le
  rw [List.length_map, ordered_length]
  exact le_maxPage_mul _ hsize

end Pages

/-! ### The order of the pages -/

section Order

variable {σ : Type v} [LinearOrder σ] [AddCommSemigroup σ]

/-- The pool of a ranked search over settled arms. -/
def settledPool (config : RankConfig σ) (arms : List (List ArmHit))
    (table : Nat → MessageInfo) (pageSize : Nat) (userId : Option Nat)
    (rerankPoolSize : Nat) : PoolEntry Unit σ :=
  freshPool config (settledRetrieval arms table) () 0 rerankPoolSize pageSize
    userId

theorem settledPool_rows (config : RankConfig σ) (arms : List (List ArmHit))
    (table : Nat → MessageInfo) {pageSize : Nat} (hsize : 1 ≤ pageSize)
    (userId : Option Nat) (rerankPoolSize : Nat) :
    poolRows (settledPool config arms table pageSize userId rerankPoolSize) =
      ((ranked table (rrfFuse config arms)).take rerankPoolSize).map
        FusedHit.scored := by
  have hall : (rrfFuse config arms).filter
      (fun hit => decide (hit.messageId ∉ [])) = rrfFuse config arms :=
    List.filter_eq_self.mpr (by simp)
  rw [poolRows_eq rfl hsize]
  simp only [settledPool, freshPool, settledRetrieval, PoolEntry.ordered,
    retrievePool, hall]
  rw [orderedPool_settled, sortDescending_cutPool, List.map_map]
  rfl

theorem ranked_scored_of_perm (config : RankConfig σ)
    {arms others : List (List ArmHit)} (hperm : arms.Perm others)
    (table : Nat → MessageInfo) :
    (ranked table (rrfFuse config arms)).map FusedHit.scored =
      (ranked table (rrfFuse config others)).map FusedHit.scored := by
  have hview : ∀ arms, (ranked table (rrfFuse config arms)).map
        FusedHit.scored =
      sortDescending (fun row : Nat × σ =>
          relevanceKey row.2 (table row.1).date row.1)
        ((rrfFuse config arms).map FusedHit.scored) := fun arms =>
    sortDescending_map (fun row : Nat × σ =>
      relevanceKey row.2 (table row.1).date row.1) FusedHit.scored _
  rw [hview, hview, rrfFuse_scored_of_perm config hperm]

/-- The pages of a pool show the best hits by the relevance key, as many as the
pool has room for and each once; neither the room nor the order of the arms
changes the order. -/
theorem pool_pages_ranked (config : RankConfig σ) (arms : List (List ArmHit))
    (table : Nat → MessageInfo) (pageSize : Nat) (hsize : 1 ≤ pageSize)
    (userId : Option Nat) (rerankPoolSize : Nat) :
    let rows := fun arms rerankPoolSize =>
      poolRows (settledPool config arms table pageSize userId rerankPoolSize)
    rows arms rerankPoolSize =
        ((ranked table (rrfFuse config arms)).take rerankPoolSize).map
          FusedHit.scored ∧
      (ranked table (rrfFuse config arms)).Pairwise (fun hit later =>
        cutKey (fun messageId => (table messageId).date) later <
          cutKey (fun messageId => (table messageId).date) hit) ∧
      (∀ smaller ≤ rerankPoolSize,
        rows arms smaller <+: rows arms rerankPoolSize) ∧
      ((rows arms rerankPoolSize).map Prod.fst).Nodup ∧
      ∀ others, arms.Perm others →
        (rrfFuse config others).map FusedHit.scored =
            (rrfFuse config arms).map FusedHit.scored ∧
          rows others rerankPoolSize = rows arms rerankPoolSize := by
  intro rows
  have hrows : ∀ arms rerankPoolSize, rows arms rerankPoolSize =
      ((ranked table (rrfFuse config arms)).take rerankPoolSize).map
        FusedHit.scored :=
    fun arms => settledPool_rows config arms table hsize userId
  have hids : ((ranked table (rrfFuse config arms)).map
      FusedHit.messageId).Nodup :=
    ((sortDescending_perm _ _).map _).nodup_iff.mpr (rrfFuse_nodup config arms)
  refine ⟨hrows arms rerankPoolSize, ?_, ?_, ?_, ?_⟩
  · exact sortDescending_strict (cutKey_nodup _ (rrfFuse_nodup config arms))
  · intro smaller hle
    rw [hrows, hrows]
    exact (List.take_prefix_take_left hle).map _
  · rw [hrows, List.map_map]
    exact hids.sublist ((List.take_sublist _ _).map _)
  · intro others hperm
    refine ⟨(rrfFuse_scored_of_perm config hperm).symm, ?_⟩
    rw [hrows, hrows, List.map_take, List.map_take,
      ranked_scored_of_perm config hperm]

end Order

namespace PoolOrderWitness

/-- Message 5 is found by both arms, 2 and 3 at the same rank of one each; 3 is
the newer. -/
def arms : List (List ArmHit) :=
  [[⟨5, none, .message, 1⟩, ⟨2, none, .message, 2⟩],
    [⟨5, some 8, .messageChunks, 1⟩, ⟨3, some 9, .messageChunks, 2⟩]]

def table (messageId : Nat) : MessageInfo :=
  ⟨7, some messageId, none⟩

end PoolOrderWitness

open PoolOrderWitness in
/-- A pool of two leaves out the older of the two that tie. -/
theorem pool_pages_ranked_tie :
    poolRows (settledPool RankWitness.config arms table 1 none 2) =
        [(5, 32786), (3, 16129)] ∧
      poolRows (settledPool RankWitness.config arms.reverse table 1 none 2) =
        [(5, 32786), (3, 16129)] := by
  obtain ⟨hrows, -, -, -, hperm⟩ := pool_pages_ranked RankWitness.config arms
    table 1 (Nat.le_refl 1) none 2
  have hbest : poolRows (settledPool RankWitness.config arms table 1 none 2) =
      [(5, 32786), (3, 16129)] := hrows.trans (by decide +kernel)
  exact ⟨hbest,
    (hperm arms.reverse (List.reverse_perm arms).symm).2.trans hbest⟩

end Localmail
