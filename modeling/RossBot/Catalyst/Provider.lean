import RossBot.Catalyst.Layers

/-!
# The catalyst provider

`adapters/catalyst/provider.py`. Every layer but two is fenced in: what the clients
raise, and what the model answers, ends in a verdict. The two are comparisons of
decimals that came from outside, of the reaction with its thresholds and of the
confidence with its own. A NaN raises in either, and a confidence above one is as
good as any other.
-/

namespace RossBot.Catalyst

/-- `NLPCatalystProvider`, as far as its settings decide anything. -/
structure NLPCatalystProvider where
  /-- `confidence_threshold`. -/
  threshold : ℚ
  llmEnabled : Bool

/-- What `classify` is given, and what its clients answer; `none` of a client: it raised. -/
structure Evidence where
  rvol : Option Decimal
  rocPct : Option Decimal
  /-- `has_dilution_filing`. -/
  dilution : Option Bool
  /-- `get_headlines`. -/
  news : Option (List NewsItem)
  llm : LlmClient

/-- `_REACTION_RVOL_MIN`. -/
def reactionRvolMin : ℚ := 5

/-- `_REACTION_ROC_MIN`. -/
def reactionRocMin : ℚ := 10

/-- `reading is not None and reading < bound`. -/
def belowMin (reading : Option Decimal) (bound : ℚ) : Option Bool :=
  match reading with
  | none => some false
  | some d => d.below bound

/-- Layers 2 to 4: a verdict, or the headlines that go to the model. -/
def screen (py : PyText) (e : Evidence) : Except CatalystVerdict (List NewsItem) :=
  -- a client that raises is passed over, or has no headlines
  if e.dilution = some true then .error .skip
  else
    match e.news.getD [] with
    | [] => .error .unverified
    | item :: rest =>
        if (item :: rest).any fun item => (scanForSkip py (item.headline ++ " " ++ item.body)).isSome
        then .error .skip
        else .ok (item :: rest)

/-- Layer 5; `none`: it raised. -/
def judge (provider : NLPCatalystProvider) (py : PyText) (llm : LlmClient)
    (headlines : List NewsItem) : Option CatalystVerdict :=
  if !provider.llmEnabled then some .unverified
  else
    match llmClassify py llm headlines with
    | none => some .unverified
    | some result =>
        if result.tag ∈ skipTags then some .skip
        else if result.tag ∈ acceptedTags then
          (result.confidence.atLeast provider.threshold).map fun enough =>
            if enough then .verified else .unverified
        else some .unverified

/-- `classify`; `none`: it raised. -/
def classify (provider : NLPCatalystProvider) (py : PyText) (e : Evidence) :
    Option CatalystVerdict :=
  match belowMin e.rvol reactionRvolMin with
  | none => none
  | some true => some .unverified
  | some false =>
      match belowMin e.rocPct reactionRocMin with
      | none => none
      | some true => some .unverified
      | some false =>
          match screen py e with
          | .error verdict => some verdict
          | .ok headlines => judge provider py e.llm headlines

/-! ## What is claimed -/

/-- The reading is at least the bound, or was not supplied. -/
def Reacts (reading : Option Decimal) (bound : ℚ) : Prop :=
  ∀ d, reading = some d → d.atLeast bound = some true

/-- The headlines that reach the model: some were fetched, no dilution filing was reported, and no
headline has a phrase that is skipped. -/
structure Screened (py : PyText) (e : Evidence) (headlines : List NewsItem) : Prop where
  dilution : e.dilution ≠ some true
  fetched : e.news = some headlines
  some_headline : headlines ≠ []
  no_skip : ∀ item ∈ headlines, scanForSkip py (item.headline ++ " " ++ item.body) = none

/-- A verified catalyst has passed every layer, with a confidence between the threshold and one. -/
structure VerifiedBy (provider : NLPCatalystProvider) (py : PyText) (e : Evidence) : Prop where
  rvol : Reacts e.rvol reactionRvolMin
  rocPct : Reacts e.rocPct reactionRocMin
  answer : ∃ headlines result c, Screened py e headlines
    ∧ llmClassify py e.llm headlines = some result ∧ result.tag ∈ acceptedTags
    ∧ result.confidence = .finite c ∧ provider.threshold ≤ c ∧ c ≤ 1

/-- **Fail-closed**: a verdict is returned, and verified only what passed every layer. -/
def FailClosed (provider : NLPCatalystProvider) (py : PyText) (e : Evidence) : Prop :=
  (∃ verdict, classify provider py e = some verdict)
    ∧ (classify provider py e = some .verified → VerifiedBy provider py e)

/-! ## The layers -/

/-- A confidence that can be compared, and is enough only up to one. -/
def InRange (threshold : ℚ) : Decimal → Prop
  | .finite value => value < threshold ∨ value ≤ 1
  | .infinity negative => negative = true
  | .nan => False

section Layers

variable {provider : NLPCatalystProvider} {py : PyText} {e : Evidence} {headlines : List NewsItem}
  {reading : Option Decimal} {bound : ℚ} {llm : LlmClient}

theorem belowMin_eq_none : belowMin reading bound = none ↔ reading = some .nan := by
  cases reading with
  | none => simp [belowMin]
  | some d =>
      rw [belowMin, Decimal.below, Option.map_eq_none_iff, Decimal.atLeast_eq_none,
        Option.some.injEq]

theorem belowMin_eq_false : belowMin reading bound = some false ↔ Reacts reading bound := by
  cases reading with
  | none => simp [belowMin, Reacts]
  | some d =>
      rw [belowMin, Decimal.below, Option.map_eq_some_iff]
      simp [Reacts]

/-- What goes to the model was screened. -/
theorem screen_eq_ok : screen py e = .ok headlines ↔ Screened py e headlines := by
  unfold screen
  by_cases hdilution : e.dilution = some true
  · rw [if_pos hdilution]
    exact iff_of_false (by simp) fun h => h.dilution hdilution
  rw [if_neg hdilution]
  cases hnews : e.news.getD [] with
  -- no headlines: UNVERIFIED before the list is looked at
  | nil =>
      refine iff_of_false (by simp) fun h => h.some_headline ?_
      rw [h.fetched] at hnews
      exact hnews
  | cons item rest =>
      have hfetched : e.news = some (item :: rest) := by
        cases he : e.news with
        | none => rw [he] at hnews; exact absurd hnews (by simp)
        | some items => rw [he] at hnews; exact congrArg some hnews
      dsimp only
      split
      · -- some headline carries a skip keyword
        rename_i hany
        refine iff_of_false (by simp) fun h => ?_
        obtain rfl : item :: rest = headlines := Option.some.inj (hfetched.symm.trans h.fetched)
        obtain ⟨hit, hmem, hsome⟩ := List.any_eq_true.mp hany
        rw [h.no_skip hit hmem] at hsome
        exact absurd hsome (by simp)
      · -- none does, so the list goes on to the classifier
        rename_i hnone
        constructor
        · intro h
          obtain rfl := Except.ok.inj h
          refine ⟨hdilution, hfetched, by simp, fun hit hmem => ?_⟩
          by_contra hsome
          exact hnone (List.any_eq_true.mpr ⟨hit, hmem, Option.isSome_iff_ne_none.mpr hsome⟩)
        · intro h
          exact congrArg _ (Option.some.inj (hfetched.symm.trans h.fetched))

/-- Screening by itself verifies nothing. -/
theorem screen_ne_verified : screen py e ≠ .error .verified := by
  unfold screen
  split
  · simp
  · split
    · simp
    · split <;> simp

/-- An accepted answer of the model is judged by its confidence. -/
theorem judge_accepted {result : CatalystResult} (henabled : provider.llmEnabled = true)
    (hllm : llmClassify py llm headlines = some result) (htag : result.tag ∈ acceptedTags) :
    judge provider py llm headlines = (result.confidence.atLeast provider.threshold).map
      fun enough => if enough then .verified else .unverified := by
  unfold judge
  rw [if_neg (by simp [henabled]), hllm]
  dsimp only
  rw [if_neg ((CatalystTag.trichotomy _).1.mp htag).1, if_pos htag]

/-- Any other answer, and none at all, is a verdict, and not verified. -/
theorem judge_other (h : ∀ result, provider.llmEnabled = true →
    llmClassify py llm headlines = some result → result.tag ∉ acceptedTags) :
    ∃ verdict, judge provider py llm headlines = some verdict ∧ verdict ≠ .verified := by
  unfold judge
  by_cases henabled : provider.llmEnabled = true
  · rw [if_neg (by simp [henabled])]
    cases hllm : llmClassify py llm headlines with
    | none => exact ⟨_, rfl, by simp⟩
    | some result =>
        dsimp only
        rw [if_neg (h result henabled hllm)]
        split <;> exact ⟨_, rfl, by simp⟩
  · rw [if_pos (by simpa using henabled)]
    exact ⟨_, rfl, by simp⟩

/-- A comparison is fail-closed exactly when the confidence is in range. -/
theorem inRange_iff {threshold : ℚ} {confidence : Decimal} :
    InRange threshold confidence ↔ ∃ enough, confidence.atLeast threshold = some enough
      ∧ (enough = true → ∃ c, confidence = .finite c ∧ threshold ≤ c ∧ c ≤ 1) := by
  cases confidence with
  -- NaN raises on the comparison, and the infinities are decided by their sign
  | nan => simp [InRange, Decimal.atLeast]
  | infinity negative => cases negative <;> simp [InRange, Decimal.atLeast]
  | finite value =>
      rw [InRange]
      constructor
      · intro h
        refine ⟨_, rfl, fun henough => ⟨value, rfl, of_decide_eq_true henough, ?_⟩⟩
        -- `classify` itself never looks whether it exceeds one
        exact h.resolve_left (not_lt.mpr (of_decide_eq_true henough))
      · rintro ⟨enough, henough, hrange⟩
        by_cases hle : threshold ≤ value
        · rw [Decimal.atLeast, decide_eq_true hle] at henough
          obtain ⟨c, hc, -, hone⟩ := hrange (Option.some.inj henough).symm
          rw [Decimal.finite.inj hc]
          exact Or.inr hone
        · exact Or.inl (not_le.mp hle)

/-- **The last layer is fail-closed exactly when an accepted answer has its confidence in range.** -/
theorem judge_failClosed_iff :
    (∃ verdict, judge provider py llm headlines = some verdict)
        ∧ (judge provider py llm headlines = some .verified → ∃ result c,
          llmClassify py llm headlines = some result ∧ result.tag ∈ acceptedTags
            ∧ result.confidence = .finite c ∧ provider.threshold ≤ c ∧ c ≤ 1)
      ↔ ∀ result, provider.llmEnabled = true → llmClassify py llm headlines = some result →
          result.tag ∈ acceptedTags → InRange provider.threshold result.confidence := by
  by_cases haccepted : ∃ result, provider.llmEnabled = true
      ∧ llmClassify py llm headlines = some result ∧ result.tag ∈ acceptedTags
  · -- the answer's tag is an accepted one: the verdict is the comparison's
    obtain ⟨result, henabled, hllm, htag⟩ := haccepted
    rw [judge_accepted henabled hllm htag]
    constructor
    · rintro ⟨⟨verdict, hverdict⟩, hverified⟩ result' - hllm' -
      obtain rfl := Option.some.inj (hllm.symm.trans hllm')
      obtain ⟨enough, henough, -⟩ := Option.map_eq_some_iff.mp hverdict
      refine inRange_iff.mpr ⟨enough, henough, fun htrue => ?_⟩
      rw [henough, htrue] at hverified
      obtain ⟨result', c, hllm', -, hc, hrange⟩ := hverified rfl
      rw [Option.some.inj (hllm.symm.trans hllm')]
      exact ⟨c, hc, hrange⟩
    · intro h
      obtain ⟨enough, henough, hrange⟩ := inRange_iff.mp (h result henabled hllm htag)
      rw [henough]
      refine ⟨⟨_, rfl⟩, fun hverified => ?_⟩
      cases enough with
      | false => exact absurd hverified (by simp)
      | true =>
          obtain ⟨c, hc, hthreshold, hone⟩ := hrange rfl
          exact ⟨result, c, hllm, htag, hc, hthreshold, hone⟩
  · -- with any other answer the classifier falls through to a verdict other than VERIFIED
    have hother : ∀ result, provider.llmEnabled = true →
        llmClassify py llm headlines = some result → result.tag ∉ acceptedTags :=
      fun result henabled hllm htag => haccepted ⟨result, henabled, hllm, htag⟩
    obtain ⟨verdict, hverdict, hne⟩ := judge_other hother
    refine iff_of_true ⟨⟨verdict, hverdict⟩, fun hverified => ?_⟩ fun result henabled hllm htag =>
      absurd htag (hother result henabled hllm)
    exact absurd (Option.some.inj (hverdict.symm.trans hverified)) hne

/-- A verdict of an earlier layer. -/
theorem FailClosed.of_verdict {verdict : CatalystVerdict}
    (h : classify provider py e = some verdict) (hne : verdict ≠ .verified) :
    FailClosed provider py e := by
  refine ⟨⟨verdict, h⟩, fun hverified => ?_⟩
  exact absurd (Option.some.inj (h.symm.trans hverified)) hne

theorem not_reacts_of_below (h : belowMin reading bound = some true) : ¬ Reacts reading bound := by
  intro hreacts
  rw [belowMin_eq_false.mpr hreacts] at h
  exact absurd h (by simp)

theorem ne_nan_of_compared {below : Bool} (h : belowMin reading bound = some below) :
    reading ≠ some .nan := by
  intro hnan
  rw [belowMin_eq_none.mpr hnan] at h
  exact absurd h (by simp)

theorem screened_unique {headlines' : List NewsItem} (h : Screened py e headlines)
    (h' : Screened py e headlines') : headlines = headlines' :=
  Option.some.inj (h.fetched.symm.trans h'.fetched)

/-- **Past the reaction gate**, all hangs on the confidence of an accepted answer. -/
theorem failClosed_iff_of_reacts (hrvol : Reacts e.rvol reactionRvolMin)
    (hroc : Reacts e.rocPct reactionRocMin) :
    FailClosed provider py e ↔ ∀ headlines result, Screened py e headlines →
      provider.llmEnabled = true → llmClassify py e.llm headlines = some result →
        result.tag ∈ acceptedTags → InRange provider.threshold result.confidence := by
  cases hscreen : screen py e with
  -- the screen already refused: no answer of the model is read
  | error verdict =>
      have hclassify : classify provider py e = some verdict := by
        rw [classify, belowMin_eq_false.mpr hrvol, belowMin_eq_false.mpr hroc, hscreen]
      have hne : verdict ≠ .verified := by
        rintro rfl
        exact screen_ne_verified hscreen
      refine iff_of_true (.of_verdict hclassify hne) fun headlines result hs => ?_
      rw [screen_eq_ok.mpr hs] at hscreen
      exact absurd hscreen (by simp)
  | ok headlines =>
      have hscreened := screen_eq_ok.mp hscreen
      have hclassify : classify provider py e = judge provider py e.llm headlines := by
        rw [classify, belowMin_eq_false.mpr hrvol, belowMin_eq_false.mpr hroc, hscreen]
      rw [FailClosed, hclassify]
      constructor
      · rintro ⟨hverdict, hverified⟩ headlines' result hs
        obtain rfl := screened_unique hscreened hs
        refine judge_failClosed_iff.mp ⟨hverdict, fun h => ?_⟩ result
        -- VERIFIED rests on the headlines that were screened, which are these
        obtain ⟨headlines', result, c, hs', hanswer⟩ := (hverified h).answer
        obtain rfl := screened_unique hscreened hs'
        exact ⟨result, c, hanswer⟩
      · intro h
        obtain ⟨hverdict, hverified⟩ := judge_failClosed_iff.mpr fun result =>
          h headlines result hscreened
        refine ⟨hverdict, fun hj => ⟨hrvol, hroc, ?_⟩⟩
        obtain ⟨result, c, hanswer⟩ := hverified hj
        exact ⟨headlines, result, c, hscreened, hanswer⟩

end Layers

/-- The inputs on which neither comparison goes wrong: no reading that is looked at is a NaN, and an
accepted answer on screened headlines has its confidence in range. -/
structure ComparesWell (provider : NLPCatalystProvider) (py : PyText) (e : Evidence) : Prop where
  rvol : e.rvol ≠ some .nan
  rocPct : Reacts e.rvol reactionRvolMin → e.rocPct ≠ some .nan
  confidence : Reacts e.rvol reactionRvolMin → Reacts e.rocPct reactionRocMin →
    ∀ headlines result, Screened py e headlines → provider.llmEnabled = true →
      llmClassify py e.llm headlines = some result → result.tag ∈ acceptedTags →
        InRange provider.threshold result.confidence

/--
**Exactly when the provider is fail-closed.**

The layers are gone through in the order of the source: a NaN raises at the comparison
that first looks at it, and a reaction that is too small ends the matter before any of
the later layers; only with both reactions there is a confidence looked at.
-/
theorem failClosed_iff (provider : NLPCatalystProvider) (py : PyText) (e : Evidence) :
    FailClosed provider py e ↔ ComparesWell provider py e := by
  cases hrvol : belowMin e.rvol reactionRvolMin with
  -- a NaN volume ratio raises in the first comparison
  | none =>
      refine iff_of_false ?_ fun h => h.rvol (belowMin_eq_none.mp hrvol)
      rintro ⟨⟨verdict, hverdict⟩, -⟩
      rw [classify, hrvol] at hverdict
      exact absurd hverdict (by simp)
  | some low =>
      have hnan := ne_nan_of_compared hrvol
      cases low with
      -- below the minimum the classifier answers before it looks at the price change
      | true =>
          have hlow := not_reacts_of_below hrvol
          have hverdict : classify provider py e = some .unverified := by rw [classify, hrvol]
          exact iff_of_true (.of_verdict hverdict (by simp))
            ⟨hnan, fun h => absurd h hlow, fun h => absurd h hlow⟩
      | false =>
          have hreacts := belowMin_eq_false.mp hrvol
          cases hroc : belowMin e.rocPct reactionRocMin with
          -- a NaN price change raises in the second
          | none =>
              refine iff_of_false ?_ fun h => h.rocPct hreacts (belowMin_eq_none.mp hroc)
              rintro ⟨⟨verdict, hverdict⟩, -⟩
              rw [classify, hrvol, hroc] at hverdict
              exact absurd hverdict (by simp)
          | some low =>
              have hnan' := ne_nan_of_compared hroc
              cases low with
              | true =>
                  have hlow := not_reacts_of_below hroc
                  have hverdict : classify provider py e = some .unverified := by
                    rw [classify, hrvol, hroc]
                  exact iff_of_true (.of_verdict hverdict (by simp))
                    ⟨hnan, fun _ => hnan', fun _ h => absurd h hlow⟩
              -- both reactions hold: the model's confidence decides
              | false =>
                  have hreacts' := belowMin_eq_false.mp hroc
                  rw [failClosed_iff_of_reacts hreacts hreacts']
                  exact ⟨fun h => ⟨hnan, fun _ => hnan', fun _ _ => h⟩,
                    fun h => h.confidence hreacts hreacts'⟩

/-! ## A confidence that is not a number -/

/-- An answer that names an accepted tag, and NaN for its confidence. -/
def nanAnswer : String := "\x7b\"tag\": \"earnings_beat\", \"confidence\": NaN\x7d"

/-- What the language makes of it. -/
def readsNan : PyText where
  lower := fun text => String.ofList (text.toList.map Char.toLower)
  strip := id
  loads := fun text =>
    if text = nanAnswer then
      some (.object fun key =>
        if key = "tag" then some "earnings_beat"
        else if key = "confidence" then some "nan"
        else none)
    else none
  decimal := fun text => if text = "nan" then some .nan else none

/-- The comparison with the threshold raises. -/
theorem nan_confidence_raises : ¬ ∀ provider py e, FailClosed provider py e := by
  intro h
  let provider : NLPCatalystProvider := ⟨7 / 10, true⟩
  let evidence : Evidence :=
    ⟨none, none, some false, some [⟨"EARN reports a record quarter", ""⟩], .answers (some nanAnswer)⟩
  have hraises : classify provider readsNan evidence = none := by decide +kernel
  obtain ⟨verdict, hverdict⟩ := (h provider readsNan evidence).1
  rw [hraises] at hverdict
  exact absurd hverdict (by simp)

end RossBot.Catalyst
