import RossBot.Demo.Entries
import RossBot.News.Verifier

/-!
# No news, no trade

The engine's scan asks the verifier that `api/main.py` puts over the news stream.
An automatic BUY therefore goes back to an article: when the scan asked about its
symbol the article had arrived, named the symbol and was within the lookback, and
it has a phrase of the verified rules and none of the skip rules.
-/

namespace RossBot

open Lib

namespace CatalystVerifier

variable {lower upper : String → String} {cacheSize : ℕ} {now : Time} {symbol : Symbol}
  {as : List Arrival} {v : CatalystVerifier} {item : NewsItem}

/-- An article that counts and is still in the bucket is a recent one. -/
theorem mem_recent_iff :
    item ∈ (NewsStreamAdapter.after upper cacheSize as).getRecentNews upper now symbol
        v.lookbackMinutes
      ↔ v.Counts upper now symbol as item
        ∧ item ∈ latest cacheSize (entries upper symbol as) := by
  rw [mem_getRecentNews, NewsStreamAdapter.items_bucket_after]
  constructor
  · rintro ⟨hmem, hin⟩
    obtain ⟨ha, hn⟩ := mem_entries.mp (mem_latest_or_older.mpr (Or.inl hmem))
    exact ⟨⟨ha, hn, hin⟩, hmem⟩
  · rintro ⟨hcounts, hmem⟩
    exact ⟨hmem, hcounts.recent⟩

/-- An article has a phrase of the rules. -/
def Says (lower : String → String) (item : NewsItem) (rules : List CatalystRule) : Prop :=
  Mentions (lower (item.headline ++ " " ++ item.summary)) rules

theorem reads_skip_iff :
    ((default lower).reads symbol item).status = .skip ↔ Says lower item skipRules := by
  change (keywordClassify lower symbol item.headline item.summary item.source).status = _ ↔ _
  rw [keywordClassify_skip_iff, Says]

theorem reads_verified_iff :
    ((default lower).reads symbol item).status = .verified
      ↔ ¬ Says lower item skipRules ∧ Says lower item verifiedRules := by
  change (keywordClassify lower symbol item.headline item.summary item.source).status = _ ↔ _
  rw [keywordClassify_verified_iff, Says, Says]

/-- **The news behind a trade.** An article says why. What says to stay out has been pushed out of
the bucket; and if the bucket kept what outranks, none such ever arrived. -/
structure Backed (lower upper : String → String) (cacheSize : ℕ) (now : Time) (symbol : Symbol)
    (as : List Arrival) : Prop where
  article : ∃ item, (default lower).Counts upper now symbol as item
    ∧ Says lower item verifiedRules ∧ ¬ Says lower item skipRules
  clean : ∀ item, (default lower).Counts upper now symbol as item → Says lower item skipRules →
    item ∉ latest cacheSize (entries upper symbol as)
  kept : (default lower).Keeps upper cacheSize now symbol as →
    ∀ item, (default lower).Counts upper now symbol as item → ¬ Says lower item skipRules

/-- A verdict of VERIFIED is backed. -/
theorem backed_of_verified
    (h : (default lower).verdict upper cacheSize now symbol as = .verified) :
    Backed lower upper cacheSize now symbol as := by
  obtain ⟨hno, item, hmem, hreads⟩ := (verify_status _ upper now _ symbol).2.mp h
  obtain ⟨hskip, hsays⟩ := reads_verified_iff.mp hreads
  refine ⟨⟨item, (mem_recent_iff.mp hmem).1, hsays, hskip⟩, ?_, ?_⟩
  · intro other hcounts hother hkept
    exact hno ⟨other, mem_recent_iff.mpr ⟨hcounts, hkept⟩, reads_skip_iff.mpr hother⟩
  · intro hkeeps other hcounts hother
    have hdue := (due_iff_keeps.mpr hkeeps).skip ⟨other, hcounts, reads_skip_iff.mpr hother⟩
    exact absurd (hdue.symm.trans h) (by decide)

end CatalystVerifier

open CatalystVerifier

/-- The articles that have arrived by an instant; each comes with the instant it arrives. -/
def arrivedBy (as : List (Time × Arrival)) (now : Time) : List Arrival :=
  (as.filter fun a => decide (a.1 ≤ now)).map Prod.snd

/-- A feed whose verifier reads the news stream: what it says of a symbol is what it makes, at the
instant it is asked, of the articles that have arrived by then. -/
def DemoScan.Feed.ReadsNews (lower upper : String → String) (cacheSize : ℕ)
    (as : List (Time × Arrival)) (asked : Symbol → Time) (feed : DemoScan.Feed) : Prop :=
  ∃ verify, feed.verify = some verify ∧ ∀ symbol result, verify symbol = some result →
    result = (CatalystVerifier.default lower).verify upper (asked symbol)
      (NewsStreamAdapter.after upper cacheSize (arrivedBy as (asked symbol))) symbol

/-- What passes the five pillars of such a feed is backed, at the instant it was asked about. -/
theorem DemoScan.FivePillars.backed {lower upper : String → String} {cacheSize : ℕ}
    {as : List (Time × Arrival)} {asked : Symbol → Time} {feed : DemoScan.Feed}
    {hit : Symbol × DemoScan.Snapshot} (h : DemoScan.FivePillars upper feed hit)
    (hnews : feed.ReadsNews lower upper cacheSize as asked) :
    Backed lower upper cacheSize (asked hit.1) hit.1 (arrivedBy as (asked hit.1)) := by
  obtain ⟨verify, hverify, hreads⟩ := hnews
  obtain ⟨result, hresult, hverified⟩ := h.catalyst verify hverify
  obtain rfl := hreads hit.1 result hresult
  exact backed_of_verified hverified

/-- The instant is one of the scan that returns with `m`: no later than its return, and no earlier
than the iteration that it is of, or than the request that triggered it. -/
structure DuringScan (before : List (Move Desk DeskLabel)) (m : Move Desk DeskLabel)
    (now : Time) : Prop where
  returned : now ≤ m.pre.clock
  loop : ∀ tierB, m.label = .scanned tierB →
    ∃ began strategy, m.pre.engine = .awaitScan began strategy ∧ began ≤ now
  triggered : ∀ i tierB, m.label = .taskScanned i tierB →
    ∃ r, Latest (fun r => r.label = .request i .triggerScan) r before ∧ r.pre.clock ≤ now

/-- The scan that returns with `m` asks the verifier over the news stream, about each symbol at an
instant of the scan, and finds what `_run_scan` makes of that. -/
def ScansNews (lower upper : String → String) (cacheSize : ℕ) (batch : ℤ)
    (as : List (Time × Arrival)) (asked : Symbol → Time) (before : List (Move Desk DeskLabel))
    (m : Move Desk DeskLabel) : Prop :=
  ∀ tierB, m.label.scans = some tierB → (∀ symbol, DuringScan before m (asked symbol))
    ∧ ∃ feed : DemoScan.Feed, feed.ReadsNews lower upper cacheSize as asked ∧ ∃ a b,
      DemoScan.runScan upper batch feed = some (a, b) ∧ tierB = b.map (·.symbol)

/-- An article about the one mover's approval. -/
def moverNews : List (Time × Arrival) :=
  [(openingBell, .live { testNews "FDA nod" with symbols := some ["CETX"] })]

/-- The one mover, in a market with news. -/
def moverInTheNews : DemoScan.Feed :=
  { DemoScan.oneMover with
    verify := some fun symbol => some ((CatalystVerifier.default asciiLower).verify asciiUpper
      openingBell (NewsStreamAdapter.after asciiUpper 10 (arrivedBy moverNews openingBell))
      symbol) }

theorem runScan_moverInTheNews :
    (DemoScan.runScan asciiUpper 50 moverInTheNews).map (fun tiers => tiers.2.map (·.symbol))
      = some ["CETX"] := by
  decide +kernel

/-- The one scan of the run finds it, at the opening bell. -/
def findsMover (m : Move Desk DeskLabel) : Bool :=
  match m.label, m.pre.engine with
  | .scanned (some tierB), .awaitScan began _ =>
      decide (tierB = ["CETX"]) && decide (began ≤ openingBell)
        && decide (openingBell ≤ m.pre.clock)
  | _, _ => false

end RossBot
