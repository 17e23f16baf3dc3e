/-
The signed tokens are sound, and fail closed but for what is not guarded: a text
outside ASCII, an infinite number in a session and an expiry that is no number
in a state.
-/
import Localmail.SignedTokens
import Localmail.FilterTokens
import Localmail.StripText

namespace Localmail

/-! ### Failing closed -/

section FailsClosed

variable {ε α β : Type}

theorem failsClosed_ok (value : α) :
    FailsClosed (.ok value : Except (Raised ε) α) := nofun

theorem failsClosed_declared (reason : ε) :
    FailsClosed (.error (.declared reason) : Except (Raised ε) α) := by
  intro error herror
  exact ⟨reason, (Except.error.inj herror).symm⟩

theorem not_failsClosed_other :
    ¬FailsClosed (.error .other : Except (Raised ε) α) := by
  intro hclosed
  obtain ⟨reason, hreason⟩ := hclosed _ rfl
  cases hreason

theorem failsClosed_bind_iff {step : Except (Raised ε) α}
    {next : α → Except (Raised ε) β} :
    FailsClosed (step >>= next) ↔
      FailsClosed step ∧ ∀ value, step = .ok value → FailsClosed (next value) := by
  cases step with
  | ok value =>
      constructor
      · intro hnext
        refine ⟨failsClosed_ok value, ?_⟩
        rintro other ⟨⟩
        exact hnext
      · exact fun hnext => hnext.2 value rfl
  | error error =>
      cases error with
      | declared reason =>
          exact iff_of_true (failsClosed_declared reason)
            ⟨failsClosed_declared reason, nofun⟩
      | other =>
          exact iff_of_false not_failsClosed_other
            fun hstep => not_failsClosed_other hstep.1

end FailsClosed

theorem toInt_failsClosed_iff (value : Json) :
    FailsClosed value.toInt ↔ value.isInfinite = false := by
  match value with
  | .null => exact iff_of_true (failsClosed_declared _) rfl
  | .bool _ => exact iff_of_true (failsClosed_ok _) rfl
  | .int _ => exact iff_of_true (failsClosed_ok _) rfl
  | .float .nan => exact iff_of_true (failsClosed_declared _) rfl
  | .float (.infinite _) => exact iff_of_false not_failsClosed_other nofun
  | .float (.finite _) => exact iff_of_true (failsClosed_ok _) rfl
  | .text value =>
      refine iff_of_true ?_ rfl
      rw [Json.toInt]
      cases intOfText value with
      | none => exact failsClosed_declared _
      | some number => exact failsClosed_ok _
  | .list _ => exact iff_of_true (failsClosed_declared _) rfl
  | .object _ => exact iff_of_true (failsClosed_declared _) rfl

theorem intField_failsClosed_iff (entries : List (Text × Json)) (name : String) :
    FailsClosed (intField entries name) ↔
      (fieldOf entries name).any Json.isInfinite = false := by
  rw [intField]
  cases fieldOf entries name with
  | none => exact iff_of_true (failsClosed_declared _) rfl
  | some value => exact toInt_failsClosed_iff value

theorem sessionPayload_failsClosed_iff (now : Int)
    (entries : List (Text × Json)) :
    FailsClosed (sessionPayload now entries) ↔
      ((fieldOf entries "v").any Json.isVersion = true →
        IntsFinite entries ["user_id", "issued_at", "exp"]) := by
  rw [sessionPayload]
  split
  · rename_i hversion
    have hlast : ∀ userId issuedAt exp, FailsClosed
        (if exp ≤ now then .error (.declared .expired)
          else .ok ⟨userId, issuedAt, exp⟩ :
            Except (Raised SessionTokenError) SessionPayload) := by
      intro userId issuedAt exp
      split
      · exact failsClosed_declared _
      · exact failsClosed_ok _
    simp only [failsClosed_bind_iff, intField_failsClosed_iff, IntsFinite,
      hlast, hversion, implies_true, and_true, forall_const, forall_exists_index]
  · rename_i hversion
    exact iff_of_true (failsClosed_declared _) fun h => absurd h hversion

section Session

variable (json : JsonRules) (mac : List UInt8 → List UInt8 → List UInt8)

theorem sign_isSome_iff (key : List UInt8) (body : Text) :
    (sign mac key body).isSome ↔ body.all CodePoint.isAscii = true := by
  rw [sign, Option.isSome_map, encodeAscii_isSome_iff]

theorem signedSession_failsClosed_iff (now : Int) (body : Text) :
    FailsClosed (signedSession json now body) ↔
      ∀ entries, (base64Decode body).bind json.loads = some (.object entries) →
        (fieldOf entries "v").any Json.isVersion = true →
          IntsFinite entries ["user_id", "issued_at", "exp"] := by
  rw [signedSession]
  split
  · rename_i entries hloads
    rw [sessionPayload_failsClosed_iff, hloads]
    constructor
    · rintro hfinite other ⟨⟩
      exact hfinite
    · exact fun hfinite => hfinite entries rfl
  · rename_i hloads
    refine iff_of_true (failsClosed_declared _) fun entries hentries => ?_
    exact absurd hentries (hloads entries)

theorem splitSession_failsClosed_iff (key : List UInt8) (now : Int)
    (body sig : Text) :
    FailsClosed (splitSession json mac key now body sig) ↔
      (body ≠ [] → sig ≠ [] →
        body.all CodePoint.isAscii = true ∧ sig.all CodePoint.isAscii = true ∧
          ∀ entries, sign mac key body = some sig →
            (base64Decode body).bind json.loads = some (.object entries) →
            (fieldOf entries "v").any Json.isVersion = true →
              IntsFinite entries ["user_id", "issued_at", "exp"]) := by
  have hsome := sign_isSome_iff mac key body
  rw [splitSession]
  split
  · rename_i hempty
    refine iff_of_true (failsClosed_declared _) fun hbody hsig => ?_
    exact absurd hempty (not_or_intro hbody hsig)
  · rename_i hparts
    have hbody : body ≠ [] := fun hbody => hparts (Or.inl hbody)
    have hsig : sig ≠ [] := fun hsig => hparts (Or.inr hsig)
    cases hsign : sign mac key body with
    | none =>
        refine iff_of_false not_failsClosed_other fun hascii => ?_
        rw [hsign, (hascii hbody hsig).1] at hsome
        exact absurd (hsome.mpr rfl) Bool.false_ne_true
    | some expected =>
        have hascii : body.all CodePoint.isAscii = true := by
          rw [← hsome, hsign]
          rfl
        dsimp only
        split
        · rename_i hsigAscii
          split
          · rename_i hdiffer
            refine iff_of_true (failsClosed_declared _)
              fun _ _ => ⟨hascii, hsigAscii, fun entries hsame => ?_⟩
            exact absurd (Option.some.inj hsame) hdiffer
          · rename_i hsame
            rw [signedSession_failsClosed_iff]
            simp [hbody, hsig, hascii, hsigAscii, not_not.mp hsame]
        · rename_i hsigAscii
          exact iff_of_false not_failsClosed_other
            fun hother => hsigAscii (hother hbody hsig).2.1

theorem decodeSessionToken_failsClosed_iff (key : List UInt8) (now : Int)
    (token : Text) :
    FailsClosed (decodeSessionToken json mac key now token) ↔
      SessionReadable json mac key token := by
  rw [decodeSessionToken]
  split
  · rename_i body sig hsplit
    rw [splitSession_failsClosed_iff]
    constructor
    · intro hreadable body' sig' hsplit'
      rw [hsplit] at hsplit'
      cases hsplit'
      exact hreadable
    · exact fun hreadable => hreadable body sig hsplit
  · rename_i hsplit
    refine iff_of_true (failsClosed_declared _) fun body sig hparts => ?_
    exact absurd hparts (hsplit body sig)

/-! ### Sound sessions -/

variable {json mac}

theorem sessionPayload_live {now : Int} {entries : List (Text × Json)}
    {payload : SessionPayload}
    (hok : sessionPayload now entries = .ok payload) : now < payload.exp := by
  rw [sessionPayload] at hok
  split at hok
  · obtain ⟨userId, -, hok⟩ := exceptBind_eq_ok.mp hok
    obtain ⟨issuedAt, -, hok⟩ := exceptBind_eq_ok.mp hok
    obtain ⟨exp, -, hok⟩ := exceptBind_eq_ok.mp hok
    split at hok
    · cases hok
    · rename_i hlive
      rw [← Except.ok.inj hok]
      exact not_le.mp hlive
  · cases hok

theorem splitSession_sound {key : List UInt8} {now : Int} {body sig : Text}
    {payload : SessionPayload}
    (hok : splitSession json mac key now body sig = .ok payload) :
    sign mac key body = some sig ∧ now < payload.exp := by
  rw [splitSession] at hok
  split at hok
  · cases hok
  · split at hok
    · cases hok
    · rename_i expected hsign
      split at hok
      · split at hok
        · cases hok
        · rename_i hsame
          rw [signedSession] at hok
          split at hok
          · rw [hsign, not_not.mp hsame]
            exact ⟨rfl, sessionPayload_live hok⟩
          · cases hok
      · cases hok

theorem decodeSessionToken_sound {key : List UInt8} {now : Int} {token : Text}
    {payload : SessionPayload}
    (hok : decodeSessionToken json mac key now token = .ok payload) :
    SessionSigned mac key token ∧ now < payload.exp := by
  rw [decodeSessionToken] at hok
  split at hok
  · rename_i body sig hsplit
    obtain ⟨hsign, hlive⟩ := splitSession_sound hok
    refine ⟨⟨body, sig, ?_, hsign⟩, hlive⟩
    have htoken : [CodePoint.scalar '.'].intercalate
        (token.splitOn (.scalar '.')) = token := List.intercalate_splitOn _
    rw [← htoken, hsplit]
    simp [List.intercalate, text]
  · cases hok

end Session

/-! ### States -/

theorem before_eq_none_iff (now : Int) (value : Json) :
    value.before now = none ↔ value.isNumber = false := by
  match value with
  | .null => exact iff_of_true rfl rfl
  | .bool _ => exact iff_of_false nofun nofun
  | .int _ => exact iff_of_false nofun nofun
  | .float .nan => exact iff_of_false nofun nofun
  | .float (.infinite _) => exact iff_of_false nofun nofun
  | .float (.finite _) => exact iff_of_false nofun nofun
  | .text _ => exact iff_of_true rfl rfl
  | .list _ => exact iff_of_true rfl rfl
  | .object _ => exact iff_of_true rfl rfl

/-- The comparison with the time fails just for what is no number. -/
theorem expiry_failsClosed_iff {α : Type} (now : Int) (exp : Json)
    (payload : α) :
    FailsClosed
        (match exp.before now with
        | none => .error .other
        | some true => .error (.declared .expired)
        | some false => .ok payload : Except (Raised StateError) α) ↔
      exp.isNumber = true := by
  have hnumber := before_eq_none_iff now exp
  rw [← Bool.not_eq_false, ← hnumber]
  cases exp.before now with
  | none => exact iff_of_false not_failsClosed_other (not_not_intro rfl)
  | some before =>
      cases before with
      | true => exact iff_of_true (failsClosed_declared _) nofun
      | false => exact iff_of_true (failsClosed_ok _) nofun

theorem splitFirstDot_append {body : Text} (hbody : .scalar '.' ∉ body)
    (sig : Text) : splitFirstDot (body ++ text "." ++ sig) = some (body, sig) := by
  have hbefore := decide_ne_of_notMem hbody
  have htoken : body ++ text "." ++ sig = body ++ .scalar '.' :: sig := by
    simp [text]
  rw [htoken, splitFirstDot, if_pos (by simp),
    takeWhile_of_stop hbefore (by simp),
    List.dropWhile_append_of_pos hbefore]
  rfl

theorem splitFirstDot_eq_some {token body sig : Text}
    (hsplit : splitFirstDot token = some (body, sig)) :
    token = body ++ text "." ++ sig := by
  by_cases hdot : .scalar '.' ∈ token
  · obtain ⟨left, right, htoken, hleft⟩ := List.eq_append_cons_of_mem hdot
    have hparts : token = left ++ text "." ++ right := by
      rw [htoken]
      simp [text]
    rw [hparts, splitFirstDot_append hleft] at hsplit
    obtain ⟨rfl, rfl⟩ := Prod.mk.inj (Option.some.inj hsplit)
    exact hparts
  · rw [splitFirstDot, if_neg hdot] at hsplit
    cases hsplit

section State

variable (json : JsonRules) (mac : List UInt8 → List UInt8 → List UInt8)
  {π : Type → Type} (codec : StateCodec π)

theorem splitState_failsClosed_iff (key : List UInt8) (now : Int)
    (body sig : Text) :
    FailsClosed (splitState json mac codec key now body sig) ↔
      body.all CodePoint.isAscii = true ∧
        ∀ data payload, encodeAscii body = some data →
          base64Decode sig = some (mac key data) →
          statePayload json codec body = some payload →
            (codec.exp payload).isNumber = true := by
  have hsome := encodeAscii_isSome_iff body
  rw [splitState]
  cases hencode : encodeAscii body with
  | none =>
      rw [hencode] at hsome
      exact iff_of_false not_failsClosed_other
        fun hascii => absurd (hsome.mpr hascii.1) Bool.false_ne_true
  | some data =>
      rw [hencode] at hsome
      have hascii : body.all CodePoint.isAscii = true := hsome.mp rfl
      cases hdecode : base64Decode sig with
      | none =>
          exact iff_of_true (failsClosed_declared _) ⟨hascii, nofun⟩
      | some actual =>
          dsimp only
          split
          · rename_i hdiffer
            refine iff_of_true (failsClosed_declared _) ⟨hascii, ?_⟩
            rintro other payload ⟨⟩ hsame
            exact absurd (Option.some.inj hsame).symm hdiffer
          · rename_i hsame
            cases hpayload : statePayload json codec body with
            | none =>
                exact iff_of_true (failsClosed_declared _) ⟨hascii, nofun⟩
            | some payload =>
                apply (expiry_failsClosed_iff now (codec.exp payload)
                  payload).trans
                constructor
                · intro hnumber
                  refine ⟨hascii, ?_⟩
                  rintro other payload' ⟨⟩ - ⟨⟩
                  exact hnumber
                · rintro ⟨-, hnumber⟩
                  exact hnumber data payload rfl
                    (by rw [not_not.mp hsame]) rfl

theorem decodeState_failsClosed_iff (key : List UInt8) (now : Int)
    (token : Text) :
    FailsClosed (decodeState json mac codec key now token) ↔
      StateReadable json mac codec key token := by
  rw [decodeState]
  split
  · rename_i hsplit
    refine iff_of_true (failsClosed_declared _) fun body sig hparts => ?_
    rw [hsplit] at hparts
    cases hparts
  · rename_i body sig hsplit
    rw [splitState_failsClosed_iff]
    constructor
    · intro hreadable body' sig' hsplit'
      rw [hsplit] at hsplit'
      cases hsplit'
      exact hreadable
    · exact fun hreadable => hreadable body sig hsplit

variable {json mac codec}

theorem splitState_sound {key : List UInt8} {now : Int} {body sig : Text}
    {payload : π Json}
    (hok : splitState json mac codec key now body sig = .ok payload) :
    (∃ data, encodeAscii body = some data ∧
        base64Decode sig = some (mac key data)) ∧
      (codec.exp payload).before now = some false := by
  rw [splitState] at hok
  split at hok
  · cases hok
  · rename_i data hencode
    split at hok
    · cases hok
    · rename_i actual hdecode
      split at hok
      · cases hok
      · rename_i hsame
        split at hok
        · cases hok
        · split at hok
          · cases hok
          · cases hok
          · rename_i hlive
            rw [← Except.ok.inj hok]
            exact ⟨⟨data, hencode, by rw [hdecode, not_not.mp hsame]⟩, hlive⟩

theorem decodeState_sound {key : List UInt8} {now : Int} {token : Text}
    {payload : π Json}
    (hok : decodeState json mac codec key now token = .ok payload) :
    StateSigned mac key token ∧
      (codec.exp payload).before now = some false := by
  rw [decodeState] at hok
  split at hok
  · cases hok
  · rename_i body sig hsplit
    obtain ⟨⟨data, hencode, hdecode⟩, hlive⟩ := splitState_sound hok
    exact ⟨⟨body, sig, data, splitFirstDot_eq_some hsplit, hencode, hdecode⟩,
      hlive⟩

end State

/-! ### Texts and surrogate pairs -/

theorem scalar_of_surrogatePair {first second char : CodePoint}
    (hpair : surrogatePair first second = some char) :
    ∃ high value, first = .surrogate high ∧ char = .scalar value := by
  rw [surrogatePair.eq_def] at hpair
  split at hpair
  · split at hpair
    · exact ⟨_, _, rfl, (Option.some.inj hpair).symm⟩
    · cases hpair
  · cases hpair

theorem joinPairs_eq_iff (value : Text) :
    joinPairs value = value ↔ Unpaired value := by
  induction value using joinPairs.induct with
  | case1 first second rest char hpair ih =>
      obtain ⟨high, value, rfl, rfl⟩ := scalar_of_surrogatePair hpair
      rw [joinPairs, hpair, Unpaired, List.isChain_cons_cons, hpair]
      exact iff_of_false nofun nofun
  | case2 first second rest hpair ih =>
      rw [joinPairs, hpair, Unpaired, List.isChain_cons_cons]
      simp only [List.cons.injEq, true_and, hpair]
      exact ih
  | case3 rest hshort =>
      cases rest with
      | nil => exact iff_of_true rfl List.IsChain.nil
      | cons first rest =>
          cases rest with
          | nil => exact iff_of_true rfl (List.IsChain.singleton first)
          | cons second rest => exact absurd rfl (hshort first second rest)

/-- A value is read back as it was. -/
theorem joined_eq_iff (value : FieldValue) :
    value.joined.toJson = value.toJson ↔ value.Unpaired := by
  cases value with
  | null => exact iff_of_true rfl trivial
  | bool value => exact iff_of_true rfl trivial
  | int value => exact iff_of_true rfl trivial
  | text value =>
      rw [FieldValue.joined, FieldValue.toJson, FieldValue.toJson,
        Json.text.injEq]
      exact joinPairs_eq_iff value
  | texts items =>
      rw [FieldValue.joined, FieldValue.toJson, FieldValue.toJson,
        Json.list.injEq, List.map_map, List.map_inj_left]
      simp only [Function.comp_apply, Json.text.injEq, joinPairs_eq_iff]
      rfl

/-! ### Reading fields back -/

theorem fieldOf_eq_some {entries : List (Text × Json)} {name : String}
    {value : Json} (hnodup : (entries.map Prod.fst).Nodup)
    (hmem : (text name, value) ∈ entries) : fieldOf entries name = some value := by
  have hfind := (find?_eq_some_iff_mem hnodup).mpr ⟨hmem, rfl⟩
  rw [fieldOf, hfind]
  rfl

end Localmail
