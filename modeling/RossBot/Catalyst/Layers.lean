import Mathlib.Data.Rat.Defs
import Mathlib.Algebra.Order.Ring.Rat
import RossBot.News.Classifier

/-!
# The layers of the catalyst provider

`adapters/catalyst`: the tags, `scan_for_skip`, and the classifier that asks a
language model and reads its answer. What the text functions of the language do
(`lower`, `strip`, `json.loads`, `Decimal`) is `PyText`; a call that raises is `none`.
-/

namespace RossBot.Catalyst

/-! ## Decimals -/

/-- A `Decimal`; its special values are numbers of the type, too. -/
inductive Decimal where
  | finite (value : ℚ)
  | infinity (negative : Bool)
  | nan
  deriving DecidableEq

/-- `self >= bound`; comparing a NaN raises `InvalidOperation`. -/
def Decimal.atLeast (bound : ℚ) : Decimal → Option Bool
  | .finite value => some (decide (bound ≤ value))
  | .infinity negative => some !negative
  | .nan => none

/-- `self < bound`. -/
def Decimal.below (bound : ℚ) (d : Decimal) : Option Bool := (d.atLeast bound).map (!·)

theorem Decimal.atLeast_eq_none {d : Decimal} {bound : ℚ} : d.atLeast bound = none ↔ d = .nan := by
  cases d <;> simp [atLeast]

/-! ## Tags -/

/-- `CatalystTag`. -/
inductive CatalystTag where
  | biotechFda
  | earningsBeat
  | majorContract
  | aiPartnership
  | cryptoTreasury
  | spaceTheme
  | virusOutbreak
  | privatePlacement
  | reverseSplit
  | recentIpo
  | recentSpac
  | investorStake
  | buyoutSkip
  | mergerAmbiguousSkip
  | secondaryOfferingSkip
  | pumpSkip
  | recycledPrSkip
  | fiveCentTickSkip
  | largeCapSkip
  | unknown
  deriving DecidableEq, Repr

/-- The value of a tag. -/
def CatalystTag.value : CatalystTag → String
  | .biotechFda => "biotech_clinical_or_fda"
  | .earningsBeat => "earnings_beat"
  | .majorContract => "major_contract_win"
  | .aiPartnership => "ai_partnership"
  | .cryptoTreasury => "crypto_treasury"
  | .spaceTheme => "space_theme"
  | .virusOutbreak => "virus_outbreak_theme"
  | .privatePlacement => "private_placement"
  | .reverseSplit => "recent_reverse_split"
  | .recentIpo => "recent_ipo"
  | .recentSpac => "recent_spac"
  | .investorStake => "investor_stake_13d_13g"
  | .buyoutSkip => "buyout_skip"
  | .mergerAmbiguousSkip => "merger_ambiguous_skip"
  | .secondaryOfferingSkip => "secondary_offering_skip"
  | .pumpSkip => "pump_skip"
  | .recycledPrSkip => "recycled_pr_skip"
  | .fiveCentTickSkip => "five_cent_tick_skip"
  | .largeCapSkip => "large_cap_skip"
  | .unknown => "unknown"

/-- `ACCEPTED_TAGS`. -/
def acceptedTags : List CatalystTag :=
  [.biotechFda, .earningsBeat, .majorContract, .aiPartnership, .cryptoTreasury, .spaceTheme,
    .virusOutbreak, .privatePlacement, .reverseSplit, .recentIpo, .recentSpac, .investorStake]

/-- `SKIP_TAGS`. -/
def skipTags : List CatalystTag :=
  [.buyoutSkip, .mergerAmbiguousSkip, .secondaryOfferingSkip, .pumpSkip, .recycledPrSkip,
    .fiveCentTickSkip, .largeCapSkip]

/-- `CatalystTag(text)`; `none` is the `ValueError`. -/
def CatalystTag.ofValue (text : String) : Option CatalystTag :=
  (acceptedTags ++ skipTags ++ [CatalystTag.unknown]).find? fun tag => tag.value = text

/-- Every tag is the one of its value. -/
theorem CatalystTag.ofValue_value (tag : CatalystTag) : ofValue tag.value = some tag := by
  cases tag <;> decide +kernel

/-- A tag is accepted, skipped, or unknown, and only one of the three. -/
theorem CatalystTag.trichotomy (tag : CatalystTag) :
    (tag ∈ acceptedTags ↔ tag ∉ skipTags ∧ tag ≠ .unknown)
      ∧ (tag ∈ skipTags ↔ tag ∉ acceptedTags ∧ tag ≠ .unknown) := by
  cases tag <;> decide

/-- `NewsItem`, as far as it is read. -/
structure NewsItem where
  headline : String
  body : String

/-- `CatalystResult`. -/
structure CatalystResult where
  tag : CatalystTag
  confidence : Decimal
  reasoning : String
  source : String

/-- `CatalystVerdict`. -/
inductive CatalystVerdict where
  | verified
  | unverified
  | skip
  deriving DecidableEq, Repr

/-! ## Text -/

/-- What `json.loads` makes of a text. -/
inductive Json where
  /-- An object: what `str` makes of the value of a key. -/
  | object (get : String → Option String)
  /-- Anything else has no `get`. -/
  | other

/-- The functions of the language that read text. -/
structure PyText where
  /-- `str.lower`. -/
  lower : String → String
  /-- `str.strip`. -/
  strip : String → String
  /-- `json.loads`. -/
  loads : String → Option Json
  /-- `Decimal(text)`. -/
  decimal : String → Option Decimal

/-- `text.startswith(start)`. -/
def startswith (text start : String) : Bool := start.toList.isPrefixOf text.toList

/-! ## Keywords -/

/-- `_SKIP_RULES`. -/
def keywordRules : List (CatalystTag × List String) :=
  [(.buyoutSkip,
      ["acquisition agreement", "to acquire", "to be acquired", "being acquired",
        "will be acquired", "buyout", "takeover bid", "tender offer",
        "to purchase all outstanding shares", "definitive agreement to buy",
        "agreement to be purchased"]),
    (.secondaryOfferingSkip,
      ["secondary offering", "follow-on offering", "underwritten public offering",
        "registered direct offering", "shelf registration", "shelf offering",
        "s-1 registration statement", "s-3 registration statement", "424b prospectus",
        "direct offering", "million shares at $", "share offering at", "stock offering at"]),
    (.pumpSkip,
      ["newsletter promotion", "stock promotion", "paid promotion", "sponsored stock alert",
        "penny stock alert", "email promotion", "hot stock pick"]),
    (.fiveCentTickSkip,
      ["5-cent tick pilot", "five cent tick pilot", "tick pilot program", "nickel spread pilot"])]

/-- `KeywordHit`. -/
structure KeywordHit where
  tag : CatalystTag
  matchedPhrase : String

/-- `scan_for_skip`. -/
def scanForSkip (py : PyText) (text : String) : Option KeywordHit :=
  let lowered := py.lower text
  keywordRules.findSome? fun rule =>
    (rule.2.find? (containsPhrase lowered)).map fun phrase => ⟨rule.1, phrase⟩

/-- A hit carries a tag that is skipped, and a phrase of the text. -/
theorem scanForSkip_sound {py : PyText} {text : String} {hit : KeywordHit}
    (h : scanForSkip py text = some hit) :
    hit.tag ∈ skipTags ∧ containsPhrase (py.lower text) hit.matchedPhrase = true := by
  obtain ⟨rule, hrule, hfind⟩ := List.exists_of_findSome?_eq_some h
  obtain ⟨phrase, hphrase, rfl⟩ := Option.map_eq_some_iff.mp hfind
  have htags : ∀ rule ∈ keywordRules, rule.1 ∈ skipTags := by decide
  exact ⟨htags rule hrule, List.find?_some hphrase⟩

/-! ## The language model -/

/-- The client of the language model. -/
inductive LlmClient where
  /-- There is no API key, or the library is not installed. -/
  | missing
  /-- Making the client raised. -/
  | broken
  /-- The text of its answer; `none`: asking, or reading the answer, raised. -/
  | answers (text : Option String)

/-- The answer without accidental markdown fences. -/
def unfence (text : String) : String :=
  if startswith text "```" then
    let parts := text.splitOn "```"
    let inner := parts.getD 1 (parts.headD "")
    if startswith inner "json" then String.ofList (inner.toList.drop 4) else inner
  else text

/-- What is read of an answer; `none` is the `AttributeError` of an answer that is no object. -/
def readAnswer (py : PyText) (text : String) : Option CatalystResult :=
  match py.loads (unfence (py.strip text)) with
  | none => some ⟨.unknown, .finite 0, "", "llm_error"⟩
  | some .other => none
  | some (.object get) =>
      some
        { tag := (CatalystTag.ofValue ((get "tag").getD "unknown")).getD .unknown
          confidence := (py.decimal ((get "confidence").getD "0.0")).getD (.finite 0)
          reasoning := (get "reasoning").getD ""
          source := "llm" }

/-- `LLMCatalystClassifier.classify`; the symbol only goes into the question. -/
def llmClassify (py : PyText) (client : LlmClient) (headlines : List NewsItem) :
    Option CatalystResult :=
  match client with
  | .missing => some ⟨.unknown, .finite 0, "", "none"⟩
  | .broken => none
  | .answers reply =>
      if headlines.isEmpty then some ⟨.unknown, .finite 0, "", "none"⟩
      else
        match reply with
        | none => some ⟨.unknown, .finite 0, "", "llm_error"⟩
        | some text => readAnswer py text

end RossBot.Catalyst
