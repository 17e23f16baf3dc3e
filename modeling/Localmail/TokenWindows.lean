/-
The windows of `split_by_tokens`.  The loop takes a slice at every multiple of
the step and stops at the first one that reaches the end, so the slices cover
the tokens and each but the last shares exactly the overlap with the next.
-/
import Mathlib.Order.Interval.Finset.Nat
import Localmail.TextChunks

namespace Localmail

universe u

/-! ### Slices of a list -/

section Slices

variable {α : Type u} (tokens : List α) (size : Nat)

/-- The loop over the starts that are left; an empty slice ends it, and so
does one that reaches the end. -/
def windowLoop : List Nat → List (List α)
  | [] => []
  | start :: rest =>
      let window := (tokens.drop start).take size
      if window.isEmpty then []
      else
        window ::
          if tokens.length ≤ start + size then [] else windowLoop rest

/-- `range(0, stop, step)`. -/
def rangeTo (stop step : Nat) : List Nat :=
  List.range' 0 ((stop + step - 1) / step) step

/-- The windows of `split_by_tokens`, before they are decoded. -/
def tokenWindows (overlap : Nat) : List (List α) :=
  windowLoop tokens size (rangeTo tokens.length (size - overlap))

/-- The positions window number `index` takes up. -/
def windowSpan (step index : Nat) (window : List α) : Finset Nat :=
  Finset.Ico (index * step) (index * step + window.length)

/-- Windows of at most `size` tokens, one every `size - overlap` tokens, that
cover the tokens without a window too many. -/
structure WindowsCover (overlap : Nat) (windows : List (List α)) : Prop where
  run : ∀ index window, windows[index]? = some window →
    window ≠ [] ∧ window.length ≤ size ∧
      window = (tokens.drop (index * (size - overlap))).take window.length
  covers : ∀ position < tokens.length, ∃ index window,
    windows[index]? = some window ∧
      position ∈ windowSpan (size - overlap) index window
  shares : ∀ index window next, windows[index]? = some window →
    windows[index + 1]? = some next →
      (windowSpan (size - overlap) index window ∩
        windowSpan (size - overlap) (index + 1) next).card = overlap
  ends : ∃ index before last, windows.length = index + 2 ∧
    windows[index]? = some before ∧ windows[index + 1]? = some last ∧
      (index + 1) * (size - overlap) + last.length = tokens.length ∧
      ¬ windowSpan (size - overlap) (index + 1) last ⊆
        windowSpan (size - overlap) index before

variable {tokens size}

theorem take_drop_isEmpty {α : Type u} {tokens : List α} {size start : Nat}
    (hsize : 0 < size) (hstart : start < tokens.length) :
    ((tokens.drop start).take size).isEmpty = false := by
  rw [List.isEmpty_eq_false_iff, Ne, List.take_eq_nil_iff,
    List.drop_eq_nil_iff]
  omega

/-- Each slice is taken where the loop stands; it stops at the first that
reaches the end. -/
theorem windowLoop_eq {step count start : Nat} (hstep : 0 < step)
    (hle : step ≤ size) (hstart : start < tokens.length)
    (hcount : tokens.length ≤ start + count * step) :
    ∃ last, windowLoop tokens size (List.range' start count step) =
        (List.range (last + 1)).map
          (fun index => (tokens.drop (start + index * step)).take size) ∧
      start + last * step < tokens.length ∧
      tokens.length ≤ start + last * step + size ∧
      ∀ index < last, start + index * step + size < tokens.length := by
  induction count generalizing start with
  | zero => omega
  | succ count ih =>
      have hsome := take_drop_isEmpty (hstep.trans_le hle) hstart
      rw [List.range'_succ]
      unfold windowLoop
      dsimp only
      rw [hsome, if_neg Bool.false_ne_true]
      by_cases hend : tokens.length ≤ start + size
      · refine ⟨0, ?_, by omega, by omega, by omega⟩
        rw [if_pos hend]
        simp
      · rw [if_neg hend]
        have hmore : tokens.length ≤ start + step + count * step := by
          rw [Nat.succ_mul] at hcount
          omega
        obtain ⟨last, hwindows, hlast, hreaches, hbefore⟩ :=
          ih (by omega) hmore
        refine ⟨last + 1, ?_, ?_, ?_, ?_⟩
        · rw [hwindows]
          conv_rhs => rw [List.range_succ_eq_map, List.map_cons, List.map_map]
          congr 1
          · simp
          · apply List.map_congr_left
            intro index _
            rw [Function.comp_apply, Nat.succ_mul]
            congr 2
            omega
        · rw [Nat.succ_mul]
          omega
        · rw [Nat.succ_mul]
          omega
        · intro index hindex
          cases index with
          | zero => omega
          | succ index =>
              have hearlier := hbefore index (Nat.lt_of_succ_lt_succ hindex)
              rw [Nat.succ_mul]
              omega

/-- The range goes far enough. -/
theorem rangeTo_reaches (stop : Nat) {step : Nat} (hstep : 0 < step) :
    stop ≤ 0 + (stop + step - 1) / step * step := by
  have hdivision := Nat.div_add_mod (stop + step - 1) step
  have hrest := Nat.mod_lt (stop + step - 1) hstep
  rw [Nat.mul_comm] at hdivision
  omega

/-- A window's place and length. -/
theorem tokenWindows_spec {overlap : Nat} (hoverlap : overlap < size)
    (hlong : size < tokens.length) :
    ∃ last, (tokenWindows tokens size overlap).length = last + 1 ∧
      (∀ index ≤ last, (tokenWindows tokens size overlap)[index]? =
        some ((tokens.drop (index * (size - overlap))).take size)) ∧
      last * (size - overlap) < tokens.length ∧
      tokens.length ≤ last * (size - overlap) + size ∧
      ∀ index < last, index * (size - overlap) + size < tokens.length := by
  have hstep : 0 < size - overlap := Nat.sub_pos_of_lt hoverlap
  obtain ⟨last, hwindows, hlast, hreaches, hbefore⟩ :=
    windowLoop_eq hstep (Nat.sub_le _ _) (by omega)
      (rangeTo_reaches tokens.length hstep)
  simp only [Nat.zero_add] at hwindows hlast hreaches hbefore
  have hall : tokenWindows tokens size overlap = _ := hwindows
  refine ⟨last, ?_, ?_, hlast, hreaches, hbefore⟩
  · rw [hall, List.length_map, List.length_range]
  · intro index hindex
    rw [hall, List.getElem?_map, List.getElem?_range (by omega)]
    rfl

/-- Where a window begins and ends: all but the last are full, and the last
one ends with the tokens. -/
structure Window (tokens : List α) (size step last index : Nat)
    (window : List α) : Prop where
  le : index ≤ last
  slice : window = (tokens.drop (index * step)).take size
  starts : index * step < tokens.length
  full : index < last → window.length = size
  final : index = last → last * step + window.length = tokens.length

section Cover

variable {overlap last : Nat}

theorem Window.nonempty {step index : Nat} {window : List α}
    (hwindow : Window tokens size step last index window) (hsize : 0 < size) :
    window ≠ [] := by
  rw [hwindow.slice, Ne, List.take_eq_nil_iff, List.drop_eq_nil_iff]
  have hstarts := hwindow.starts
  omega

theorem Window.length_le {step index : Nat} {window : List α}
    (hwindow : Window tokens size step last index window) :
    window.length ≤ size := by
  rw [hwindow.slice]
  exact List.length_take_le _ _

/-- Every window is one of these. -/
theorem tokenWindows_windows (hoverlap : overlap < size)
    (hlong : size < tokens.length) :
    ∃ last, (tokenWindows tokens size overlap).length = last + 1 ∧
      (∀ index < last, index * (size - overlap) + size < tokens.length) ∧
      (∀ index ≤ last, ∃ window,
        (tokenWindows tokens size overlap)[index]? = some window) ∧
      ∀ index window,
        (tokenWindows tokens size overlap)[index]? = some window →
        Window tokens size (size - overlap) last index window := by
  obtain ⟨last, hlength, hwindow, hlast, hreaches, hbefore⟩ :=
    tokenWindows_spec hoverlap hlong
  refine ⟨last, hlength, hbefore,
    fun index hindex => ⟨_, hwindow index hindex⟩, ?_⟩
  intro index window hget
  have hindex : index ≤ last := by
    have hlt := (List.getElem?_eq_some_iff.mp hget).1
    omega
  rw [hwindow index hindex] at hget
  obtain rfl := Option.some.inj hget
  have hstarts : index * (size - overlap) < tokens.length :=
    Nat.lt_of_le_of_lt (Nat.mul_le_mul_right _ hindex) hlast
  refine ⟨hindex, rfl, hstarts, ?_, ?_⟩
  · intro hlt
    have hinside := hbefore index hlt
    rw [List.length_take, List.length_drop]
    omega
  · rintro rfl
    rw [List.length_take, List.length_drop]
    omega

/-- A full window and the next share the overlap. -/
theorem Window.shares {index : Nat} {window next : List α}
    (hoverlap : overlap < size)
    (hbefore : index * (size - overlap) + size < tokens.length)
    (hwindow : Window tokens size (size - overlap) last index window)
    (hnext : Window tokens size (size - overlap) last (index + 1) next) :
    (windowSpan (size - overlap) index window ∩
      windowSpan (size - overlap) (index + 1) next).card = overlap := by
  have hfull := hwindow.full hnext.le
  have hend : index * (size - overlap) + size ≤
      (index + 1) * (size - overlap) + next.length := by
    rcases Nat.lt_or_eq_of_le hnext.le with hlt | heq
    · rw [hnext.full hlt, Nat.succ_mul]
      omega
    · rw [heq, hnext.final heq]
      omega
  unfold windowSpan
  rw [Finset.Ico_inter_Ico, Nat.card_Ico, hfull, Nat.min_eq_left hend,
    Nat.succ_mul]
  omega

/-- The last window ends with the tokens, past the one before it. -/
theorem Window.ends {index : Nat} {before final : List α}
    (hbefore : index * (size - overlap) + size < tokens.length)
    (hwindow : Window tokens size (size - overlap) (index + 1) index before)
    (hfinal : Window tokens size (size - overlap) (index + 1) (index + 1)
      final) :
    (index + 1) * (size - overlap) + final.length = tokens.length ∧
      ¬ windowSpan (size - overlap) (index + 1) final ⊆
        windowSpan (size - overlap) index before := by
  have hends := hfinal.final rfl
  have hfull := hwindow.full (Nat.lt_succ_self _)
  refine ⟨hends, fun hsubset => ?_⟩
  have hlast : tokens.length - 1 ∈
      windowSpan (size - overlap) (index + 1) final := by
    have hstarts := hfinal.starts
    rw [windowSpan, Finset.mem_Ico]
    omega
  have hinside := hsubset hlast
  rw [windowSpan, Finset.mem_Ico] at hinside
  omega

theorem tokenWindows_cover (hoverlap : overlap < size)
    (hlong : size < tokens.length) :
    WindowsCover tokens size overlap (tokenWindows tokens size overlap) := by
  obtain ⟨last, hlength, hbefore, hsome, hwindow⟩ :=
    tokenWindows_windows hoverlap hlong
  have hstep : 0 < size - overlap := Nat.sub_pos_of_lt hoverlap
  have hsize : 0 < size := Nat.lt_of_le_of_lt (Nat.zero_le _) hoverlap
  constructor
  · intro index window hget
    have hthis := hwindow index window hget
    refine ⟨hthis.nonempty hsize, hthis.length_le, ?_⟩
    conv_lhs => rw [hthis.slice]
    rw [hthis.slice, List.length_take, ← List.take_eq_take_min]
  · intro position hposition
    -- the last window that starts at or before the position
    rcases Nat.lt_or_ge (position / (size - overlap)) last with hlt | hge
    · obtain ⟨window, hget⟩ := hsome _ (Nat.le_of_lt hlt)
      refine ⟨_, window, hget, ?_⟩
      have hfull := (hwindow _ window hget).full hlt
      have hrest := Nat.mod_lt position hstep
      have hdivision := Nat.div_add_mod position (size - overlap)
      rw [Nat.mul_comm] at hdivision
      rw [windowSpan, Finset.mem_Ico]
      omega
    · obtain ⟨window, hget⟩ := hsome last (Nat.le_refl _)
      refine ⟨last, window, hget, ?_⟩
      have hfinal := (hwindow last window hget).final rfl
      have hstarts := Nat.le_trans (Nat.mul_le_mul_right _ hge)
        (Nat.div_mul_le_self position (size - overlap))
      rw [windowSpan, Finset.mem_Ico]
      omega
  · intro index window next hget hnext
    have hthen := hwindow _ next hnext
    exact (hwindow index window hget).shares hoverlap
      (hbefore index hthen.le) hthen
  · cases last with
    | zero =>
        obtain ⟨window, hget⟩ := hsome 0 (Nat.le_refl _)
        have hfinal := (hwindow 0 window hget).final rfl
        have hle := (hwindow 0 window hget).length_le
        omega
    | succ index =>
        obtain ⟨before, hgetBefore⟩ := hsome index (Nat.le_succ _)
        obtain ⟨final, hgetFinal⟩ := hsome (index + 1) (Nat.le_refl _)
        exact ⟨index, before, final, hlength, hgetBefore, hgetFinal,
          (hwindow index before hgetBefore).ends
            (hbefore index (Nat.lt_succ_self _))
            (hwindow _ final hgetFinal)⟩

end Cover

end Slices

/-! ### `split_by_tokens` -/

/-- A tokenizer, of which nothing is known. -/
structure Tokenizer where
  Token : Type
  encode : Text → Except ValueError (List Token)
  decode : List Token → Text

def Tokenizer.splitByTokens (enc : Tokenizer) (text : Text)
    (size overlap : Int) : Except ValueError (List Text) :=
  if size ≤ 0 then .error .size
  else if overlap < 0 ∨ size ≤ overlap then .error .overlap
  else
    match enc.encode text with
    | .error error => .error error
    | .ok tokens =>
        if tokens.length ≤ size then .ok (if text = [] then [] else [text])
        else
          .ok ((tokenWindows tokens size.toNat overlap.toNat).map enc.decode)

section Encoding

variable {enc : Encoding}

/-- What is asked of a tokenizer elsewhere is not needed for its windows. -/
def Encoding.tokenizer (enc : Encoding) : Tokenizer :=
  ⟨enc.Token, enc.encode, enc.decode⟩

/-- Dropping a step and starting a step later is the same loop. -/
theorem windowsFuel_eq_windowLoop {size step fuel start count : Nat}
    {tokens : List enc.Token} (hstep : 0 < step) (hle : step ≤ size)
    (hstart : start < tokens.length) (hfuel : tokens.length ≤ start + fuel)
    (hcount : tokens.length ≤ start + count * step) :
    windowsFuel enc size step fuel (tokens.drop start) =
      windowLoop tokens size (List.range' start count step) := by
  induction fuel generalizing start count with
  | zero => omega
  | succ fuel ih =>
      cases count with
      | zero => omega
      | succ count =>
          have hsome := take_drop_isEmpty (hstep.trans_le hle) hstart
          rw [List.range'_succ]
          unfold windowsFuel windowLoop
          dsimp only
          rw [hsome, if_neg Bool.false_ne_true]
          congr 1
          by_cases hend : tokens.length ≤ start + size
          · rw [if_pos hend, if_pos (by rw [List.length_drop]; omega)]
          · have hmore : tokens.length ≤ start + step + count * step := by
              rw [Nat.succ_mul] at hcount
              omega
            rw [if_neg hend, if_neg (by rw [List.length_drop]; omega),
              List.drop_drop]
            exact ih (by omega) (by omega) hmore

theorem splitByTokens_eq (text : Text) (size overlap : Int) :
    splitByTokens enc text size overlap =
      enc.tokenizer.splitByTokens text size overlap := by
  unfold splitByTokens Tokenizer.splitByTokens
  by_cases hsize : size ≤ 0
  · rw [if_pos hsize, if_pos hsize]
  · rw [if_neg hsize, if_neg hsize]
    by_cases hoverlap : overlap < 0 ∨ size ≤ overlap
    · rw [if_pos hoverlap, if_pos hoverlap]
    · rw [if_neg hoverlap, if_neg hoverlap]
      unfold Encoding.tokenizer
      dsimp only
      cases enc.encode text with
      | error error => rfl
      | ok tokens =>
          dsimp only
          by_cases hshort : tokens.length ≤ size
          · rw [if_pos hshort, if_pos hshort]
          · rw [if_neg hshort, if_neg hshort]
            have hstep : (size - overlap).toNat =
                size.toNat - overlap.toNat := by
              omega
            have hpositive : 0 < size.toNat - overlap.toNat := by
              omega
            have hloop := @windowsFuel_eq_windowLoop enc size.toNat
              (size.toNat - overlap.toNat) tokens.length 0 _ tokens hpositive
              (Nat.sub_le _ _) (by omega) (by omega)
              (rangeTo_reaches tokens.length hpositive)
            rw [List.drop_zero] at hloop
            rw [hstep, hloop]
            rfl

end Encoding

/-- For any tokenizer and any text with more than `size` tokens: the pieces
are the decoded windows, and the windows cover the tokens. -/
theorem splitByTokens_covers (enc : Tokenizer) (text : Text)
    (tokens : List enc.Token) (size overlap : Int)
    (hencode : enc.encode text = .ok tokens) (hlong : size < tokens.length)
    (hoverlap : 0 ≤ overlap ∧ overlap < size) :
    enc.splitByTokens text size overlap =
        .ok ((tokenWindows tokens size.toNat overlap.toNat).map enc.decode) ∧
      WindowsCover tokens size.toNat overlap.toNat
        (tokenWindows tokens size.toNat overlap.toNat) := by
  refine ⟨?_, tokenWindows_cover (by omega) (by omega)⟩
  unfold Tokenizer.splitByTokens
  rw [if_neg (by omega), if_neg (by omega), hencode]
  dsimp only
  rw [if_neg (by omega)]

/-- A tokenizer with a token for each character. -/
def charTokenizer : Tokenizer :=
  ⟨CodePoint, .ok, id⟩

/-- Seven tokens, three at a time, each window sharing one. -/
theorem splitByTokens_covers_seven :
    charTokenizer.splitByTokens (text "abcdefg") 3 1 =
        .ok [text "abc", text "cde", text "efg"] ∧
      WindowsCover (text "abcdefg") 3 1
        [text "abc", text "cde", text "efg"] :=
  splitByTokens_covers charTokenizer (text "abcdefg") (text "abcdefg") 3 1 rfl
    (by decide) (by decide)

end Localmail
