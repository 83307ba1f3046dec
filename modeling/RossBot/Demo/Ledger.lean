import RossBot.Demo.Moves

/-!
# What a step posts to the books

A step changes `positions`, the objects, `closed_trades` and `risk` by what it posts
and in no other way, a halt of the day apart (`step_posts`). The rows an entry adds
and the P&L it records are those of the calls of `_record_journal` it comes with.
The results about positions, the journal and the day's counters start from here.
-/

namespace RossBot

open Lib

/-- A call of `_record_journal`, with the amounts before they are printed. -/
structure JournalCall where
  /-- The object closed; a made-up trade has none. -/
  ref : Option ℕ
  pos : DemoPosition
  exitPrice : ℚ
  shares : ℤ
  reason : DemoExit
  now : Time

/-- `(price - pos.entry_price) * Decimal(shares)`. -/
def JournalCall.realized (c : JournalCall) : ℚ := (c.exitPrice - c.pos.entryPrice) * (c.shares : ℚ)

/-- The row it appends. -/
def JournalCall.row (c : JournalCall) : JournalRow :=
  journalRow c.pos c.exitPrice c.shares c.realized c.reason c.now

/-- The calls of `_record_journal` an entry comes with: one, or none. -/
def Desk.journals (s : Desk) : Posting → List JournalCall
  | .scales exit half =>
      let pos := s.objects exit.ref
      [⟨some exit.ref, { pos with shares := pos.shares - half, scaled := true }, exit.price, half,
        .p5ScaleHalf, exit.now⟩]
  | .closes exit reason =>
      let pos := s.objects exit.ref
      [⟨some exit.ref, pos, exit.price, pos.shares, reason, exit.now⟩]
  | .replays pos exitPrice reason now => [⟨none, pos, exitPrice, pos.shares, reason, now⟩]
  | _ => []

/-- What the log says of the books. -/
def DemoEvent.posted : DemoEvent → Bool
  | .opened _ _ | .journaled _ _ | .recordedClose _ _ _ => true
  | _ => false

namespace Desk

variable {env : DemoEnv} {s s' t : Desk}

/-- The books are the same; the day may have been halted. -/
structure SameBooks (s s' : Desk) : Prop where
  positions : s'.positions = s.positions
  objects : s'.objects = s.objects
  nextRef : s'.nextRef = s.nextRef
  closedTrades : s'.closedTrades = s.closedTrades
  risk : s.risk.SameCounts s'.risk
  log : ∃ es, s'.log = s.log ++ es ∧ ∀ e ∈ es, e.posted = false

theorem SameBooks.trans (h : s.SameBooks s') (h' : s'.SameBooks t) : s.SameBooks t := by
  obtain ⟨es, hes, hp⟩ := h.log
  obtain ⟨fs, hfs, hq⟩ := h'.log
  refine ⟨h'.positions.trans h.positions, h'.objects.trans h.objects, h'.nextRef.trans h.nextRef,
    h'.closedTrades.trans h.closedTrades, h.risk.trans h'.risk, es ++ fs,
    by rw [hfs, hes, List.append_assoc], ?_⟩
  intro e he
  rcases List.mem_append.mp he with he | he
  · exact hp e he
  · exact hq e he

/-- Nothing in the books or the log has changed. -/
theorem SameBooks.of_eq (hp : s'.positions = s.positions) (ho : s'.objects = s.objects)
    (hn : s'.nextRef = s.nextRef) (hc : s'.closedTrades = s.closedTrades) (hr : s'.risk = s.risk)
    (hl : s'.log = s.log) : s.SameBooks s' :=
  ⟨hp, ho, hn, hc, by rw [hr]; exact .refl _, [], by rw [hl]; simp⟩

theorem SameBooks.refl (s : Desk) : s.SameBooks s := .of_eq rfl rfl rfl rfl rfl rfl

/-- Something is noted that is not in the books. -/
theorem SameBooks.toNote (h : s.SameBooks s') {e : DemoEvent} (he : e.posted = false) :
    s.SameBooks (s'.note e) :=
  h.trans ⟨rfl, rfl, rfl, rfl, .refl _, [e], rfl, by simpa using he⟩

/-- The day is halted, or not. -/
theorem SameBooks.toRisk (h : s.SameBooks s') {r : DemoRisk} (hr : s'.risk.SameCounts r) :
    s.SameBooks { s' with risk := r } :=
  h.trans ⟨rfl, rfl, rfl, rfl, hr, [], by simp⟩

/-- The loop is somewhere else. -/
theorem SameBooks.toEngine (h : s.SameBooks s') (e : EngineTask) :
    s.SameBooks { s' with engine := e } := h.trans (.of_eq rfl rfl rfl rfl rfl rfl)

/-- A handler is somewhere else. -/
theorem SameBooks.toTask (h : s.SameBooks s') (i : ℕ) (k : OperatorTask) :
    s.SameBooks (s'.setTask i k) := h.trans (.of_eq rfl rfl rfl rfl rfl rfl)

/-! ## What an entry changes -/

variable (s) in
/-- The rows are what was journaled. -/
theorem closedTrades_post (p : Posting) :
    (s.post p).closedTrades = s.closedTrades ++ (s.journals p).map JournalCall.row := by
  cases p <;> first | rfl | exact (List.append_nil _).symm

variable (s) in
/-- Every close that is journaled is recorded. -/
theorem realizedPnl_post (p : Posting) :
    (s.post p).risk.realizedPnl
      = s.risk.realizedPnl + ((s.journals p).map JournalCall.realized).sum := by
  have hclose : ∀ (r : DemoRisk) pnl, (r.recordClose pnl).realizedPnl = r.realizedPnl + pnl := by
    intro r pnl
    unfold DemoRisk.recordClose
    dsimp only
    split <;> rfl
  cases p with
  | scales exit half => exact (hclose ..).trans (by simp [journals, JournalCall.realized]; rfl)
  | closes exit reason => exact (hclose ..).trans (by simp [journals, JournalCall.realized]; rfl)
  | replays pos x reason now =>
      exact (hclose ..).trans (by simp [journals, JournalCall.realized]; rfl)
  | _ => exact (add_zero _).symm

variable (s) in
@[simp] theorem halted_post (p : Posting) : (s.post p).risk.halted = s.risk.halted := by
  cases p with
  | scales exit half => exact DemoRisk.halted_recordClose ..
  | closes exit reason => exact DemoRisk.halted_recordClose ..
  | replays pos x reason now => exact DemoRisk.halted_recordClose ..
  | _ => rfl

/-- An entry, and what raised after it. -/
theorem Posted.sameBooks {l : DeskLabel} (h : s.Posted env l t) :
    (s.post (s.posting env l)).SameBooks t := by
  rcases h with rfl | ⟨symbol, rfl⟩
  · exact .refl _
  · exact (SameBooks.refl _).toNote rfl

theorem posting_of_loops {l : DeskLabel} (h : l.loops = true) : s.posting env l = .nothing := by
  cases l <;> first | rfl | exact absurd h (by simp [DeskLabel.loops])

/-- **One entry for every step**: what a step does to the books is what it posts. -/
theorem step_posts {l : DeskLabel} (hs : s.step env l = some s') :
    (s.post (s.posting env l)).SameBooks s' := by
  have hself := SameBooks.refl s
  cases step_cases hs with
  | ticks | approves => exact .of_eq rfl rfl rfl rfl rfl rfl
  | waits r tierB hl he hr =>
      rw [posting_of_loops hl]
      exact ⟨rfl, rfl, rfl, rfl, hr, [], (List.append_nil _).symm, by simp⟩
  | sendsEntry | sendsScale | sendsExit => exact (hself.toNote rfl).toEngine _
  | booksLoop _ hp => exact hp.sameBooks.toEngine _
  | settles r svc overrides hr =>
      exact ⟨rfl, rfl, rfl, rfl, hr, [], (List.append_nil _).symm, by simp⟩
  | switches => exact .of_eq rfl rfl rfl rfl rfl rfl
  | asks hp =>
      rw [posting, hp]
      exact hself.toTask _ _
  | sendsManual _ hp =>
      rw [posting, hp]
      exact (hself.toNote rfl).toTask _ _
  | flattens hconn =>
      rw [posting, requested, if_pos hconn]
      exact (hself.toNote rfl).toTask _ _
  | haltsDay reason =>
      exact (hself.toRisk (s.risk.sameCounts_halt (.haltDay reason))).toNote rfl
  | kills hconn =>
      rw [posting, requested, if_pos hconn]
      exact ⟨rfl, rfl, rfl, rfl, s.risk.sameCounts_halt .manualKillSwitch, [_, _],
        List.append_assoc .., by simp [DemoEvent.posted]⟩
  | killsOffline hconn =>
      rw [posting, requested, if_neg (by simp [hconn])]
      exact ⟨rfl, rfl, rfl, rfl, s.risk.sameCounts_halt .manualKillSwitch, [_, _],
        List.append_assoc .., by simp [DemoEvent.posted]⟩
  | taskCloses | taskScales => exact (hself.toNote rfl).toTask _ _
  | finishes _ _ hp => exact hp.sameBooks.trans (.of_eq rfl rfl rfl rfl rfl rfl)
  | killReturns htask =>
      rw [posting, htask]
      exact ((SameBooks.refl _).toNote rfl).toTask _ _

end Desk

end RossBot
