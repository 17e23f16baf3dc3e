/-
A bounded cache whose entries expire.  Its keys are kept in the order of their
last use, the latest in front; a hit counts as a use and leaves the time of the
entry as it was.  What it answers is stated by the history of its calls: a hit
is the value that was put last, and a key is kept as long as few others are used
between one use of it and the next.
-/
import Mathlib.Data.List.AList
import Mathlib.Data.Finset.Card

namespace Localmail

namespace LruTtl

universe u v w

variable {K : Type u} {V : Type v} {T : Type w} [DecidableEq K]

/-- Items by key, the one that was used last in front. -/
abbrev Recent (K : Type u) (V : Type v) := AList fun _ : K => V

/-- `OrderedDict.move_to_end` of a key that is there. -/
def moveToEnd (key : K) (items : Recent K V) : Recent K V :=
  (items.lookup key).elim items fun value => items.insert key value

/-- Assignment, which leaves a key that is there in its place. -/
def setItem (key : K) (value : V) (items : Recent K V) : Recent K V :=
  if key ∈ items then items.replace key value else items.insert key value

/-- `popitem(last=False)`, while there are more items than allowed. -/
def popOldest {α : Type u} (maxsize : Nat) : List α → List α
  | [] => []
  | oldest :: rest =>
      if maxsize < rest.length + 1 then popOldest maxsize rest
      else oldest :: rest

theorem popOldest_eq {α : Type u} (maxsize : Nat) (items : List α) :
    popOldest maxsize items = items.drop (items.length - maxsize) := by
  induction items with
  | nil => simp [popOldest]
  | cons oldest rest ih =>
      rw [popOldest, List.length_cons]
      split
      · rename_i hmore
        rw [ih, Nat.succ_sub (Nat.lt_succ_iff.mp hmore), List.drop_succ_cons]
      · rename_i hfits
        rw [Nat.sub_eq_zero_of_le (Nat.le_of_not_lt hfits), List.drop_zero]

theorem reverse_popOldest {α : Type u} (maxsize : Nat) (items : List α) :
    (popOldest maxsize items.reverse).reverse = items.take maxsize := by
  rw [popOldest_eq, List.length_reverse, List.drop_reverse, List.reverse_reverse]
  by_cases hfits : items.length ≤ maxsize
  · rw [Nat.sub_eq_zero_of_le hfits, Nat.sub_zero,
      List.take_of_length_le hfits, List.take_length]
  · rw [Nat.sub_sub_self (Nat.le_of_not_le hfits)]

def shrink (maxsize : Nat) (items : Recent K V) : Recent K V where
  entries := (popOldest maxsize items.entries.reverse).reverse
  nodupKeys := by
    rw [reverse_popOldest]
    exact items.nodupKeys.sublist (List.take_sublist _ _)

def put (maxsize : Nat) (now : T) (key : K) (value : V)
    (items : Recent K (T × V)) : Recent K (T × V) :=
  shrink maxsize (setItem key (now, value)
    (if key ∈ items then moveToEnd key items else items))

def get (expired : T → T → Bool) (now : T) (key : K)
    (items : Recent K (T × V)) : Option V × Recent K (T × V) :=
  match items.lookup key with
  | none => (none, items)
  | some (stamp, value) =>
      if expired now stamp then (none, items.erase key)
      else (some value, moveToEnd key items)

def invalidate (key : K) (items : Recent K (T × V)) : Recent K (T × V) :=
  items.erase key

/-! ### One operation -/

section Items

variable {items : Recent K V} {key other : K} {value : V}

omit [DecidableEq K] in
theorem entries_shrink (maxsize : Nat) (items : Recent K V) :
    (shrink maxsize items).entries = items.entries.take maxsize :=
  reverse_popOldest maxsize items.entries

theorem lookup_of_shrink {maxsize : Nat}
    (hlookup : (shrink maxsize items).lookup key = some value) :
    items.lookup key = some value := by
  rw [← Option.mem_def, AList.mem_lookup_iff] at hlookup ⊢
  rw [entries_shrink] at hlookup
  exact List.mem_of_mem_take hlookup

theorem lookup_moveToEnd (key other : K) (items : Recent K V) :
    (moveToEnd key items).lookup other = items.lookup other := by
  unfold moveToEnd
  cases hkey : items.lookup key with
  | none => rfl
  | some value =>
      by_cases hsame : other = key
      · subst hsame
        exact (AList.lookup_insert items).trans hkey.symm
      · exact AList.lookup_insert_ne hsame

theorem setItem_insert (value before : V) :
    setItem key value (items.insert key before) = items.insert key value := by
  unfold setItem
  rw [if_pos ((AList.mem_insert items).mpr (.inl rfl))]
  apply AList.ext
  show List.kreplace key value (items.insert key before).entries = _
  rw [AList.entries_insert, AList.entries_insert, List.kreplace,
    List.lookmap_cons_some]
  simp

/-- A key that is put is the one that was used last. -/
theorem put_eq {T : Type w} (maxsize : Nat) (now : T) (key : K) (value : V)
    (items : Recent K (T × V)) :
    put maxsize now key value items =
      shrink maxsize (items.insert key (now, value)) := by
  unfold put
  split
  · rename_i hmem
    obtain ⟨before, hbefore⟩ := Option.isSome_iff_exists.mp
      (AList.lookup_isSome.mpr hmem)
    rw [moveToEnd, hbefore, Option.elim_some, setItem_insert]
  · rename_i hmissing
    rw [setItem, if_neg hmissing]

end Items

section Get

variable {expired : T → T → Bool} {now : T} {items : Recent K (T × V)}
  {key other : K} {entry : T × V}

theorem lookup_of_get
    (hlookup : (get expired now key items).2.lookup other = some entry) :
    items.lookup other = some entry := by
  unfold get at hlookup
  split at hlookup
  · exact hlookup
  · split at hlookup
    · by_cases hsame : other = key
      · subst hsame
        rw [AList.lookup_erase] at hlookup
        cases hlookup
      · exact (AList.lookup_erase_ne hsame).symm.trans hlookup
    · exact (lookup_moveToEnd key other items).symm.trans hlookup

theorem get_eq_some_iff {value : V} :
    (get expired now key items).1 = some value ↔
      ∃ stamp, items.lookup key = some (stamp, value) ∧
        expired now stamp = false := by
  unfold get
  split
  · rename_i hnone
    simp [hnone]
  · rename_i stamp found hfound
    split
    · rename_i hexpired
      simp [hfound, hexpired]
    · rename_i hlive
      simp [hfound, hlive]

end Get

/-! ### Histories -/

inductive Call (K : Type u) (V : Type v) (T : Type w) where
  | put (now : T) (key : K) (value : V)
  | get (now : T) (key : K)
  | invalidate (key : K)

namespace Call

/-- The key whose value the call sets or takes away. -/
def sets : Call K V T → Option K
  | .put _ key _ | .invalidate key => some key
  | .get _ _ => none

/-- The key that the call puts or asks for. -/
def uses : Call K V T → Option K
  | .put _ key _ | .get _ key => some key
  | .invalidate _ => none

def perform (maxsize : Nat) (expired : T → T → Bool)
    (items : Recent K (T × V)) : Call K V T → Recent K (T × V)
  | .put now key value => LruTtl.put maxsize now key value items
  | .get now key => (LruTtl.get expired now key items).2
  | .invalidate key => LruTtl.invalidate key items

end Call

/-- The cache after the calls, the first one first. -/
def after (maxsize : Nat) (expired : T → T → Bool)
    (calls : List (Call K V T)) : Recent K (T × V) :=
  calls.foldl (Call.perform maxsize expired) ∅

/-- The other keys that were used after the last use of the key. -/
def usedSince (key : K) (calls : List (Call K V T)) : Finset K :=
  calls.foldl (fun since call => call.uses.elim since fun other =>
    if other = key then ∅ else insert other since) ∅

section Histories

variable {maxsize : Nat} {expired : T → T → Bool}

theorem after_concat (calls : List (Call K V T)) (call : Call K V T) :
    after maxsize expired (calls ++ [call]) =
      call.perform maxsize expired (after maxsize expired calls) := by
  rw [after, List.foldl_append]
  rfl

theorem length_put_le (now : T) (key : K) (value : V)
    (items : Recent K (T × V)) :
    (put maxsize now key value items).keys.length ≤ maxsize := by
  rw [put_eq, AList.keys, entries_shrink, List.keys, List.length_map,
    List.length_take]
  exact Nat.min_le_left _ _

theorem length_erase_le (key : K) (items : Recent K V) :
    (items.erase key).keys.length ≤ items.keys.length := by
  rw [AList.keys_erase]
  exact List.length_erase_le

theorem length_moveToEnd (key : K) (items : Recent K V) :
    (moveToEnd key items).keys.length = items.keys.length := by
  unfold moveToEnd
  cases hkey : items.lookup key with
  | none => rfl
  | some value =>
      have hmem : key ∈ items.keys :=
        AList.mem_keys.mp (AList.lookup_isSome.mp (by rw [hkey]; rfl))
      rw [Option.elim_some, AList.keys_insert, List.length_cons,
        List.length_erase_of_mem hmem,
        Nat.sub_add_cancel (List.length_pos_of_mem hmem)]

theorem length_get_le (now : T) (key : K) (items : Recent K (T × V)) :
    (get expired now key items).2.keys.length ≤ items.keys.length := by
  unfold get
  split
  · exact Nat.le_refl _
  · split
    · exact length_erase_le key items
    · exact (length_moveToEnd key items).le

/-- There are never more keys than allowed. -/
theorem length_after_le (calls : List (Call K V T)) :
    (after maxsize expired calls).keys.length ≤ maxsize := by
  induction calls using List.reverseRecOn with
  | nil => exact Nat.zero_le _
  | append_singleton calls call ih =>
      rw [after_concat]
      cases call with
      | put now key value => exact length_put_le now key value _
      | get now key => exact (length_get_le now key _).trans ih
      | invalidate key => exact (length_erase_le key _).trans ih

/-- What a call leaves of a key it does not set was there before. -/
theorem lookup_of_perform {call : Call K V T} {items : Recent K (T × V)}
    {key : K} {entry : T × V} (hsets : call.sets ≠ some key)
    (hlookup : (call.perform maxsize expired items).lookup key = some entry) :
    items.lookup key = some entry := by
  cases call with
  | put now other value =>
      have hne : key ≠ other := fun hsame => hsets (congrArg some hsame.symm)
      rw [Call.perform, put_eq] at hlookup
      exact (AList.lookup_insert_ne hne).symm.trans (lookup_of_shrink hlookup)
  | get now other => exact lookup_of_get hlookup
  | invalidate other =>
      have hne : key ≠ other := fun hsame => hsets (congrArg some hsame.symm)
      exact (AList.lookup_erase_ne hne).symm.trans hlookup

/-- What is kept of a key is what was put last. -/
theorem put_of_lookup {calls : List (Call K V T)} {key : K} {stamp : T}
    {value : V}
    (hlookup : (after maxsize expired calls).lookup key = some (stamp, value)) :
    ∃ before later, calls = before ++ .put stamp key value :: later ∧
      ∀ call ∈ later, call.sets ≠ some key := by
  induction calls using List.reverseRecOn with
  | nil => cases hlookup
  | append_singleton calls call ih =>
      rw [after_concat] at hlookup
      by_cases hsets : call.sets = some key
      · cases call with
        | put now other found =>
            cases hsets
            rw [Call.perform, put_eq] at hlookup
            have hnew := lookup_of_shrink hlookup
            rw [AList.lookup_insert, Option.some.injEq, Prod.mk.injEq] at hnew
            obtain ⟨rfl, rfl⟩ := hnew
            exact ⟨calls, [], rfl, by simp⟩
        | get now other => cases hsets
        | invalidate other =>
            cases hsets
            have hgone := (AList.lookup_erase key _).symm.trans hlookup
            cases hgone
      · obtain ⟨before, later, rfl, hlater⟩ := ih (lookup_of_perform hsets hlookup)
        refine ⟨before, later ++ [call], by simp, fun other hother => ?_⟩
        obtain hold | hlast := List.mem_append.mp hother
        · exact hlater other hold
        · exact List.mem_singleton.mp hlast ▸ hsets

/-! ### What is kept -/

/-- The key is kept, and whatever was used after it is among the given ones. -/
structure Kept (key : K) (entry : T × V) (since : Finset K)
    (items : Recent K (T × V)) : Prop where
  behind : ∃ newer older, items.entries = newer ++ ⟨key, entry⟩ :: older ∧
    ∀ item ∈ newer, item.1 ∈ since

theorem Kept.lookup {key : K} {entry : T × V} {since : Finset K}
    {items : Recent K (T × V)} (h : Kept key entry since items) :
    items.lookup key = some entry := by
  obtain ⟨newer, older, hentries, -⟩ := h.behind
  rw [← Option.mem_def, AList.mem_lookup_iff, hentries]
  exact List.mem_append_right _ List.mem_cons_self

/-- A key is not dropped as long as few others were used after it. -/
theorem Kept.shrink {key : K} {entry : T × V} {since : Finset K}
    {items : Recent K (T × V)} (h : Kept key entry since items)
    (hfew : since.card < maxsize) :
    Kept key entry since (shrink maxsize items) := by
  obtain ⟨newer, older, hentries, hnewer⟩ := h.behind
  have hdistinct : (newer.map Sigma.fst).Nodup := by
    have hkeys := items.nodupKeys
    rw [hentries] at hkeys
    exact List.Nodup.sublist ((List.sublist_append_left _ _).map _) hkeys
  have hlength : newer.length ≤ since.card := by
    rw [← List.length_map Sigma.fst, ← List.toFinset_card_of_nodup hdistinct]
    apply Finset.card_le_card
    intro other hother
    obtain ⟨item, hitem, rfl⟩ := List.mem_map.mp (List.mem_toFinset.mp hother)
    exact hnewer item hitem
  refine ⟨newer, older.take (maxsize - newer.length - 1), ?_, hnewer⟩
  rw [entries_shrink, hentries, List.take_append,
    List.take_of_length_le (by omega)]
  obtain ⟨room, hroom⟩ : ∃ room, maxsize - newer.length = room + 1 :=
    ⟨maxsize - newer.length - 1, by omega⟩
  rw [hroom, List.take_succ_cons, Nat.add_sub_cancel]

/-- Taking another key away leaves what stands behind the newer ones. -/
theorem kerase_behind {key other : K} (hne : other ≠ key) (entry : V)
    (newer older : List (Sigma fun _ : K => V)) :
    ∃ fewer rest, List.kerase other (newer ++ ⟨key, entry⟩ :: older) =
      fewer ++ ⟨key, entry⟩ :: rest ∧ fewer ⊆ newer := by
  induction newer with
  | nil => exact ⟨[], _, List.kerase_cons_ne hne, List.Subset.refl _⟩
  | cons item newer ih =>
      by_cases hsame : other = item.1
      · refine ⟨newer, older, ?_, List.subset_cons_self _ _⟩
        rw [List.cons_append, List.kerase_cons_eq hsame]
      · obtain ⟨fewer, rest, hrest, hfewer⟩ := ih
        refine ⟨item :: fewer, rest, ?_, List.cons_subset_cons _ hfewer⟩
        rw [List.cons_append, List.kerase_cons_ne hsame, hrest,
          List.cons_append]

theorem Kept.erase {key other : K} {entry : T × V} {since : Finset K}
    {items : Recent K (T × V)} (h : Kept key entry since items)
    (hne : other ≠ key) : Kept key entry since (items.erase other) := by
  obtain ⟨newer, older, hentries, hnewer⟩ := h.behind
  obtain ⟨fewer, rest, hrest, hfewer⟩ := kerase_behind hne entry newer older
  refine ⟨fewer, rest, ?_, fun item hitem => hnewer item (hfewer hitem)⟩
  exact (congrArg (List.kerase other) hentries).trans hrest

theorem Kept.insert {key other : K} {entry found : T × V} {since : Finset K}
    {items : Recent K (T × V)} (h : Kept key entry since items)
    (hne : other ≠ key) :
    Kept key entry (insert other since) (items.insert other found) := by
  obtain ⟨newer, older, hentries, hnewer⟩ := (h.erase hne).behind
  refine ⟨⟨other, found⟩ :: newer, older, ?_, fun item hitem => ?_⟩
  · exact AList.entries_insert.trans (congrArg _ hentries)
  · obtain rfl | hold := List.mem_cons.mp hitem
    · exact Finset.mem_insert_self _ _
    · exact Finset.mem_insert_of_mem (hnewer item hold)

theorem kept_insert (key : K) (entry : T × V) (items : Recent K (T × V)) :
    Kept key entry ∅ (items.insert key entry) :=
  ⟨[], _, AList.entries_insert, by simp⟩

omit [DecidableEq K] in
theorem Kept.mono {key : K} {entry : T × V} {since more : Finset K}
    {items : Recent K (T × V)} (h : Kept key entry since items)
    (hmore : since ⊆ more) : Kept key entry more items := by
  obtain ⟨newer, older, hentries, hnewer⟩ := h.behind
  exact ⟨newer, older, hentries, fun item hitem => hmore (hnewer item hitem)⟩

/-- Asking for another key uses that key, or takes it away. -/
theorem Kept.get {key other : K} {entry : T × V} {since : Finset K}
    {items : Recent K (T × V)} (h : Kept key entry since items)
    (hne : other ≠ key) (now : T) :
    Kept key entry (Insert.insert other since)
      (get expired now other items).2 := by
  unfold LruTtl.get
  split
  · exact h.mono (Finset.subset_insert _ _)
  · rename_i stamp found hfound
    split
    · exact (h.erase hne).mono (Finset.subset_insert _ _)
    · rw [moveToEnd, hfound]
      exact h.insert hne

/-- Asking for a key that is kept and has not expired makes it the latest. -/
theorem Kept.hit {key : K} {entry : T × V} {since : Finset K}
    {items : Recent K (T × V)} (h : Kept key entry since items) {now : T}
    (hlive : expired now entry.1 = false) :
    Kept key entry ∅ (LruTtl.get expired now key items).2 := by
  have hget : (LruTtl.get expired now key items).2 = moveToEnd key items := by
    unfold LruTtl.get
    rw [h.lookup]
    simp only [hlive]
    rfl
  rw [hget, moveToEnd, h.lookup]
  exact kept_insert key entry items

theorem usedSince_concat (key : K) (calls : List (Call K V T))
    (call : Call K V T) :
    usedSince key (calls ++ [call]) =
      call.uses.elim (usedSince key calls) fun other =>
        if other = key then ∅ else insert other (usedSince key calls) := by
  rw [usedSince, List.foldl_append]
  rfl

/-- What one call leaves of a key that it does not set. -/
theorem Kept.perform {key : K} {entry : T × V} {calls : List (Call K V T)}
    {items : Recent K (T × V)} {call : Call K V T}
    (h : Kept key entry (usedSince key calls) items)
    (hsets : call.sets ≠ some key)
    (hlive : ∀ now, call = .get now key → expired now entry.1 = false)
    (hfew : (usedSince key (calls ++ [call])).card < maxsize) :
    Kept key entry (usedSince key (calls ++ [call]))
      (call.perform maxsize expired items) := by
  rw [usedSince_concat] at hfew ⊢
  cases call with
  | put now other value =>
      have hne : other ≠ key := fun hsame => hsets (congrArg some hsame)
      simp only [Call.uses, Option.elim_some, if_neg hne] at hfew ⊢
      rw [Call.perform, put_eq]
      exact (h.insert hne).shrink hfew
  | get now other =>
      by_cases hsame : other = key
      · subst hsame
        simp only [Call.uses, Option.elim_some, if_pos]
        exact h.hit (hlive now rfl)
      · simp only [Call.uses, Option.elim_some, if_neg hsame]
        exact h.get hsame now
  | invalidate other =>
      have hne : other ≠ key := fun hsame => hsets (congrArg some hsame)
      exact h.erase hne

/-- A key that was put is kept as long as, at any moment since, fewer others
than there is room for were used after it. -/
theorem kept_of_few {before later : List (Call K V T)} {key : K} {stamp : T}
    {value : V} (hsets : ∀ call ∈ later, call.sets ≠ some key)
    (hlive : ∀ call ∈ later, ∀ now, call = .get now key →
      expired now stamp = false)
    (hfew : ∀ sofar, sofar <+: later → (usedSince key sofar).card < maxsize) :
    (after maxsize expired (before ++ .put stamp key value :: later)).lookup
      key = some (stamp, value) := by
  suffices hkept : Kept key (stamp, value) (usedSince key later)
      (after maxsize expired (before ++ .put stamp key value :: later)) from
    hkept.lookup
  induction later using List.reverseRecOn with
  | nil =>
      rw [after_concat, Call.perform, put_eq]
      exact (kept_insert key _ _).shrink (hfew [] (List.nil_prefix))
  | append_singleton later call ih =>
      have hsofar := ih
        (fun other hother => hsets other (List.mem_append_left _ hother))
        (fun other hother => hlive other (List.mem_append_left _ hother))
        (fun sofar hbegins => hfew sofar
          (hbegins.trans (List.prefix_append _ _)))
      have hlast : call ∈ later ++ [call] :=
        List.mem_append_right _ (List.mem_singleton.mpr rfl)
      rw [← List.cons_append, ← List.append_assoc, after_concat]
      exact hsofar.perform (hsets call hlast) (hlive call hlast)
        (hfew _ (List.prefix_refl _))

end Histories

end LruTtl

end Localmail
