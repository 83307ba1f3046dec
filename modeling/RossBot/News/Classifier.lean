import Mathlib.Data.List.Infix

/-!
# The keyword classifier

`core/news/catalyst_classifier.py`. `lower` is `str.lower`.
-/

namespace RossBot

/-- The `status` of a `CatalystResult`. -/
inductive CatalystStatus where
  | verified
  | skip
  | unverified
  deriving DecidableEq, Repr

/-- `CatalystResult`. -/
structure CatalystResult where
  status : CatalystStatus
  catalystType : String
  reason : String
  deriving DecidableEq, Repr

/-- A rule: the label it gives, and its phrases. -/
abbrev CatalystRule := String × List String

/-- `_SKIP_RULES`. -/
def skipRules : List CatalystRule :=
  [("buyout_acquisition",
      ["buyout", "acquisition", "being acquired", "merger agreement", "to be acquired",
        "will be acquired", "agreed to be acquired", "agrees to be acquired", "tender offer",
        "takeover bid", "definitive agreement to buy"]),
    ("secondary_offering",
      ["secondary offering", "follow-on offering", "underwritten public offering",
        "shelf registration", "shelf offering", "atm offering", "at-the-market offering",
        "dilution", "registered direct", "direct offering", "s-1 registration statement",
        "s-3 registration statement"]),
    ("pump_newsletter",
      ["pump alert", "newsletter", "text alert", "promotional", "paid promotion",
        "sponsored stock alert", "penny stock alert", "hot stock pick", "stock promotion"]),
    ("recycled_news", ["recycled", "reissued", "previously announced"]),
    ("five_cent_tick",
      ["five-cent tick pilot", "5-cent tick pilot", "tick pilot program", "nickel spread pilot"])]

/-- `_VERIFIED_RULES`. -/
def verifiedRules : List CatalystRule :=
  [("biotech_fda",
      ["fda", "clinical", "trial results", "pdufa", "drug approval", "phase 1", "phase 2",
        "phase 3", "nda ", "bla ", "new drug application", "biologics license"]),
    ("earnings_beat",
      ["earnings beat", "revenue beat", "eps above", "beats estimates", "beats expectations",
        "above consensus"]),
    ("ai_partnership",
      ["ai partnership", "artificial intelligence", "machine learning partnership",
        "generative ai", "large language model"]),
    ("contract_win",
      ["contract win", "contract award", "agreement with nvidia", "agreement with tesla",
        "agreement with apple", "agreement with walmart", "agreement with amazon",
        "agreement with microsoft", "supply agreement", "strategic agreement", "major contract",
        "strategic partnership", "supply partnership"]),
    ("crypto_treasury",
      ["bitcoin treasury", "bitcoin reserve", "crypto purchase", "cryptocurrency reserve",
        "digital asset purchase"]),
    ("ipo_or_reverse_split",
      ["initial public offering", " ipo ", "spac", "reverse split", "reverse stock split",
        "reverse merger"]),
    ("activist_investor",
      ["investor stake", "13d", "13g", "activist investor", "activist shareholder",
        "major shareholder", "significant stake", "discloses stake", "increases stake"])]

/-- `phrase in text`. -/
def containsPhrase (text phrase : String) : Bool := decide (phrase.toList <:+: text.toList)

/-- The first rule with a phrase in the text, and the first such phrase of it. -/
def firstMatch (text : String) (rules : List CatalystRule) : Option (String × String) :=
  rules.findSome? fun rule => (rule.2.find? (containsPhrase text)).map (rule.1, ·)

/-- `CatalystClassifier.classify`; the symbol and the source are not looked at. -/
def keywordClassify (lower : String → String) (_symbol headline summary _source : String) :
    CatalystResult :=
  let text := lower (headline ++ " " ++ summary)
  match firstMatch text skipRules with
  | some (label, phrase) => ⟨.skip, label, "skip_keyword:" ++ phrase⟩
  | none =>
      match firstMatch text verifiedRules with
      | some (label, phrase) => ⟨.verified, label, "keyword_match:" ++ phrase⟩
      | none => ⟨.unverified, "none", "no_recognized_catalyst"⟩

/-- Some phrase of some rule is in the text. -/
def Mentions (text : String) (rules : List CatalystRule) : Prop :=
  ∃ rule ∈ rules, ∃ phrase ∈ rule.2, containsPhrase text phrase = true

theorem firstMatch_eq_none {text : String} {rules : List CatalystRule} :
    firstMatch text rules = none ↔ ¬ Mentions text rules := by
  simp [firstMatch, Mentions, List.findSome?_eq_none_iff]

variable {lower : String → String} {symbol headline summary source : String}

/-- **A skip phrase decides, whatever else is said.** -/
theorem keywordClassify_skip_iff :
    (keywordClassify lower symbol headline summary source).status = .skip
      ↔ Mentions (lower (headline ++ " " ++ summary)) skipRules := by
  unfold keywordClassify
  dsimp only
  cases hskip : firstMatch (lower (headline ++ " " ++ summary)) skipRules with
  | some m =>
      refine iff_of_true rfl ?_
      by_contra hn
      exact absurd (hskip.symm.trans (firstMatch_eq_none.mpr hn)) (by simp)
  | none =>
      refine iff_of_false ?_ (firstMatch_eq_none.mp hskip)
      cases firstMatch (lower (headline ++ " " ++ summary)) verifiedRules <;> simp

/-- A catalyst is verified by a phrase of its rules, and no skip phrase. -/
theorem keywordClassify_verified_iff :
    (keywordClassify lower symbol headline summary source).status = .verified
      ↔ ¬ Mentions (lower (headline ++ " " ++ summary)) skipRules
        ∧ Mentions (lower (headline ++ " " ++ summary)) verifiedRules := by
  unfold keywordClassify
  dsimp only
  cases hskip : firstMatch (lower (headline ++ " " ++ summary)) skipRules with
  | some m =>
      refine iff_of_false (by simp) fun h => ?_
      exact absurd (hskip.symm.trans (firstMatch_eq_none.mpr h.1)) (by simp)
  | none =>
      have hno := firstMatch_eq_none.mp hskip
      cases hver : firstMatch (lower (headline ++ " " ++ summary)) verifiedRules with
      | some m =>
          refine iff_of_true rfl ⟨hno, ?_⟩
          by_contra hn
          exact absurd (hver.symm.trans (firstMatch_eq_none.mpr hn)) (by simp)
      | none => exact iff_of_false (by simp) fun h => firstMatch_eq_none.mp hver h.2

end RossBot
