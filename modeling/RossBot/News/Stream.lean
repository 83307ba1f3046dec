import RossBot.Lib.Dict
import RossBot.Lib.Window
import RossBot.Market
import RossBot.News.Classifier

/-!
# The news stream

`core/news/news_stream.py`: the cache both writers fill, the live handler and the
backfill, and the query the verifier makes. `upper` is `str.upper`. Callbacks see
an article after it is stored and have no hand in the cache, so they are left out.
-/

namespace RossBot

open Lib

/-- A `datetime`: its wall clock, and its offset from UTC when it has one. -/
structure CreatedAt where
  wall : Time
  utcoffset : Option ℚ

/-- `replace(tzinfo=UTC)` when naive, `astimezone(UTC)` when not. -/
def CreatedAt.utc (created : CreatedAt) : Time :=
  match created.utcoffset with
  | none => created.wall
  | some offset => created.wall - offset

/-- An article as the SDK hands it over; `none` is an `id` that is no number, a missing
`created_at`, or a `None`. -/
structure RawNews where
  id : Option ℤ
  headline : Option String
  summary : Option String
  source : Option String
  symbols : Option (List String)
  createdAt : Option CreatedAt

/-- `NewsItem`. -/
structure NewsItem where
  id : ℤ
  headline : String
  summary : String
  source : String
  symbols : List Symbol
  createdAt : Time
  deriving DecidableEq

/-- The `NewsItem` of an article; `none` when one of the reads raises. -/
def RawNews.item (upper : String → String) (news : RawNews) : Option NewsItem := do
  let created ← news.createdAt
  let id ← news.id
  some
    { id
      headline := news.headline.getD ""
      summary := news.summary.getD ""
      source := news.source.getD ""
      symbols := (news.symbols.getD []).map upper
      createdAt := created.utc }

/-- The buckets an article goes to: those of its symbols, or `*`. -/
def NewsItem.topics (item : NewsItem) : List String :=
  if item.symbols = [] then ["*"] else item.symbols

/-- `NewsStreamAdapter`: a deque of at most `cacheSize` articles for each bucket. -/
structure NewsStreamAdapter (cacheSize : ℕ) where
  cache : Dict String (Deque NewsItem cacheSize) := ∅

namespace NewsStreamAdapter

variable {cacheSize : ℕ}

/-- `self._cache[sym]` of the `defaultdict`. -/
def bucket (s : NewsStreamAdapter cacheSize) (sym : String) : Deque NewsItem cacheSize :=
  (s.cache.get? sym).getD Deque.empty

/-- `self._cache[sym].appendleft(item)`. -/
def appendleft (item : NewsItem) (s : NewsStreamAdapter cacheSize) (sym : String) :
    NewsStreamAdapter cacheSize :=
  { s with cache := s.cache.set sym ((s.bucket sym).appendleft item) }

/-- Store an article in all its buckets; one that cannot be read is dropped. -/
def store (upper : String → String) (s : NewsStreamAdapter cacheSize) (news : RawNews) :
    NewsStreamAdapter cacheSize :=
  match news.item upper with
  | none => s
  | some item => item.topics.foldl (appendleft item) s

/-- `_store_item_sync`. -/
def storeItemSync (upper : String → String) (s : NewsStreamAdapter cacheSize) (article : RawNews) :
    NewsStreamAdapter cacheSize := s.store upper article

/-- `_on_news`. -/
def onNews (upper : String → String) (s : NewsStreamAdapter cacheSize) (news : RawNews) :
    NewsStreamAdapter cacheSize := s.store upper news

/-- `get_recent_news`. -/
def getRecentNews (upper : String → String) (s : NewsStreamAdapter cacheSize) (now : Time)
    (symbol : Symbol) (lookbackMinutes : ℤ) : List NewsItem :=
  let cutoff := now - lookbackMinutes * 60
  (s.bucket (upper symbol)).items.filter fun item => decide (cutoff ≤ item.createdAt)

end NewsStreamAdapter

/-- An article arrives, over the socket or from the backfill. -/
inductive Arrival where
  | live (news : RawNews)
  | backfilled (article : RawNews)

/-- The article that arrives. -/
def Arrival.news : Arrival → RawNews
  | .live news => news
  | .backfilled article => article

namespace NewsStreamAdapter

variable {cacheSize : ℕ}

/-- The writer of the arrival stores it. -/
def arrive (upper : String → String) (s : NewsStreamAdapter cacheSize) :
    Arrival → NewsStreamAdapter cacheSize
  | .live news => s.onNews upper news
  | .backfilled article => s.storeItemSync upper article

/-- The stream after the arrivals, from an empty cache. -/
def after (upper : String → String) (cacheSize : ℕ) (as : List Arrival) :
    NewsStreamAdapter cacheSize :=
  as.foldl (arrive upper) {}

end NewsStreamAdapter

/-- The entries an arrival leaves in a bucket: one for each time the article names it. -/
def Arrival.entries (upper : String → String) (sym : String) (a : Arrival) : List NewsItem :=
  match a.news.item upper with
  | none => []
  | some item => List.replicate (item.topics.count sym) item

namespace NewsStreamAdapter

variable {cacheSize : ℕ} {upper : String → String} {s : NewsStreamAdapter cacheSize}

theorem bucket_appendleft (item : NewsItem) (sym sym' : String) :
    (s.appendleft item sym).bucket sym'
      = if sym' = sym then (s.bucket sym').appendleft item else s.bucket sym' := by
  rw [bucket, appendleft, Dict.get?_set]
  by_cases h : sym' = sym
  · rw [if_pos h, if_pos h, h]; rfl
  · rw [if_neg h, if_neg h]; rfl

/-- An article named twice in a bucket's name is there twice. -/
theorem bucket_foldl_appendleft (item : NewsItem) (topics : List String) (sym : String) :
    (topics.foldl (appendleft item) s).bucket sym
      = (List.replicate (topics.count sym) item).foldl Deque.appendleft (s.bucket sym) := by
  induction topics generalizing s with
  | nil => rfl
  | cons topic topics ih =>
      rw [List.foldl_cons, ih, bucket_appendleft]
      by_cases h : sym = topic
      · rw [if_pos h, h, List.count_cons_self, List.replicate_succ, List.foldl_cons]
      · rw [if_neg h, List.count_cons_of_ne (Ne.symm h)]

/-- One arrival: its entries go in at the left. -/
theorem bucket_arrive (a : Arrival) (sym : String) :
    (s.arrive upper a).bucket sym
      = (a.entries upper sym).foldl Deque.appendleft (s.bucket sym) := by
  have hstore : s.arrive upper a = s.store upper a.news := by cases a <;> rfl
  rw [hstore, store, Arrival.entries]
  cases a.news.item upper with
  | none => rfl
  | some item => exact bucket_foldl_appendleft item item.topics sym

theorem bucket_foldl_arrive (as : List Arrival) (sym : String) :
    (as.foldl (arrive upper) s).bucket sym
      = (as.flatMap (Arrival.entries upper sym)).foldl Deque.appendleft (s.bucket sym) := by
  induction as generalizing s with
  | nil => rfl
  | cons a as ih => rw [List.foldl_cons, ih, bucket_arrive, List.flatMap_cons, List.foldl_append]

/-- **A bucket holds the latest entries.** -/
theorem items_bucket_after (as : List Arrival) (sym : String) :
    ((after upper cacheSize as).bucket sym).items
      = latest cacheSize (as.flatMap (Arrival.entries upper sym)) := by
  rw [after, bucket_foldl_arrive]
  exact Deque.items_foldl_empty _

end NewsStreamAdapter

end RossBot
