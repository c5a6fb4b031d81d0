import MarketData.Migration
import MarketData.Proofs.Except

/-!
# Migrations there and back

Legacy entries count seconds and current ones milliseconds, so a migration there and back is
exact only as far as the units allow.

From the legacy side (`legacy_current_legacy`) a book comes back exactly when its timestamp has
a millisecond form, a depth reading always comes back, and a market entry comes back with its
pair identifier in the canonical spelling and its expiration cut to whole seconds.

From the current side (`current_legacy_current`) a book comes back with its timestamp truncated
toward zero to whole seconds, a depth reading with the time the second migration gives it, and a
price entry with a canonical pair comes back without its chain and with its timestamp truncated
the same way.

Both rest on the unit conversions being inverse where they are exact. Seconds go to milliseconds
and back unchanged. Milliseconds go to seconds and back truncated, and never overflow on the way
back, since a quotient by a thousand lies far inside the range.
-/

namespace MarketData

theorem Ordinal.check_of_known {e : Enumeration} {o : Ordinal e} (known : o.known = true) :
    o.check = .ok () := by
  unfold Ordinal.check Registry.check
  rw [if_pos (show e.registry.known o.val = true from known)]

namespace Migration

/-! ## Units -/

theorem millisLimit_eq : ((Int.pow 2 63 - 1) / 1000 : Int) = 9223372036854775 := by decide

theorem tdiv_thousand (a : Int) : a.tdiv 1000 = if 0 ≤ a then a / 1000 else -((-a) / 1000) := by
  split
  · exact Int.tdiv_eq_ediv_of_nonneg ‹_›
  · rw [← Int.neg_neg a, Int.neg_tdiv, Int.neg_neg, Int.tdiv_eq_ediv_of_nonneg (by omega)]

theorem secondsToMillis_of_fits (field : String) {s : Int64}
    (fits : -2 ^ 63 ≤ s.toInt * 1000 ∧ s.toInt * 1000 < 2 ^ 63) :
    secondsToMillis field s = .ok (Int64.ofInt (s.toInt * 1000)) := by
  unfold secondsToMillis
  rw [millisLimit_eq, if_neg (by simp only [Bool.or_eq_true, decide_eq_true_eq, not_or]; omega)]

theorem secondsToMillis_eq_ok {field : String} {s t : Int64} (h : secondsToMillis field s = .ok t) :
    (-2 ^ 63 ≤ s.toInt * 1000 ∧ s.toInt * 1000 < 2 ^ 63) ∧ t = Int64.ofInt (s.toInt * 1000) := by
  unfold secondsToMillis at h
  rw [millisLimit_eq] at h
  dsimp only at h
  split at h
  · cases h
  · rename_i inRange
    simp only [Bool.or_eq_true, decide_eq_true_eq, not_or] at inRange
    exact ⟨by omega, (Except.ok.inj h).symm⟩

theorem toInt_millisToSeconds (ms : Int64) : (millisToSeconds ms).toInt = ms.toInt.tdiv 1000 := by
  have := ms.toInt_lt
  have := ms.le_toInt
  unfold millisToSeconds
  rw [Int64.toInt_ofInt_of_le] <;> rw [tdiv_thousand] <;> split <;> omega

theorem millisToSeconds_eq_div (ms : Int64) : millisToSeconds ms = ms / 1000 := by
  rw [← Int64.toInt_inj, Int64.toInt_div_of_ne_right _ _ (by decide), toInt_millisToSeconds]
  rfl

theorem millisToSeconds_ofInt {s : Int64} (fits : -2 ^ 63 ≤ s.toInt * 1000 ∧ s.toInt * 1000 < 2 ^ 63) :
    millisToSeconds (Int64.ofInt (s.toInt * 1000)) = s := by
  rw [← Int64.toInt_inj, toInt_millisToSeconds, Int64.toInt_ofInt_of_le fits.1 fits.2]
  exact Int.mul_tdiv_cancel _ (by decide)

/-- Milliseconds taken to whole seconds always have a millisecond form again: the multiple of a
thousand toward zero. -/
theorem secondsToMillis_millisToSeconds (field : String) (ms : Int64) :
    secondsToMillis field (millisToSeconds ms) = .ok (1000 * (ms / 1000)) := by
  have := ms.toInt_lt
  have := ms.le_toInt
  have quotient := toInt_millisToSeconds ms
  rw [tdiv_thousand] at quotient
  have fits : -2 ^ 63 ≤ (millisToSeconds ms).toInt * 1000 ∧ (millisToSeconds ms).toInt * 1000 < 2 ^ 63 := by
    split at quotient <;> omega
  rw [secondsToMillis_of_fits _ fits, ← millisToSeconds_eq_div]
  congr 1
  rw [← Int64.toInt_inj, Int64.toInt_ofInt_of_le fits.1 fits.2, Int64.toInt_mul, Int.mul_comm,
    show (1000 : Int64).toInt = 1000 from rfl]
  rw [Int.bmod_eq_of_le] <;> omega

theorem unsignedMillisToSeconds_eq (field : String) (ms : UInt64) :
    unsignedMillisToSeconds field ms = .ok (Int64.ofNat (ms.toNat / 1000)) := by
  have := ms.toNat_lt
  unfold unsignedMillisToSeconds
  rw [if_neg (by simp only [Nat.pow_eq, Nat.reducePow] at this ⊢; omega)]

theorem mapM_unsignedMillisToSeconds (field : String) (ms : Option UInt64) :
    ms.mapM (unsignedMillisToSeconds field) = .ok (ms.map fun ms => Int64.ofNat (ms.toNat / 1000)) := by
  cases ms with
  | none => rfl
  | some ms => simp [Option.mapM, unsignedMillisToSeconds_eq]

/-- Unsigned milliseconds taken to whole seconds have an unsigned millisecond form again: the
multiple of a thousand below. -/
theorem secondsToUnsignedMillis_ofNat (field : String) (ms : UInt64) :
    secondsToUnsignedMillis field (Int64.ofNat (ms.toNat / 1000)) = .ok (ms - ms % 1000) := by
  have := ms.toNat_lt
  have small : ms.toNat / 1000 < 2 ^ 63 := by simp at this; omega
  unfold secondsToUnsignedMillis
  rw [Int64.toInt_ofNat_of_lt small, if_neg (by omega),
    if_neg (by simp only [Nat.pow_eq, Nat.reducePow, Int.toNat_natCast] at this ⊢; omega)]
  congr 1
  apply UInt64.toNat_inj.1
  have below : ms % 1000 ≤ ms := by
    rw [UInt64.le_iff_toNat_le, UInt64.toNat_mod]
    exact Nat.mod_le _ _
  rw [UInt64.toNat_sub_of_le _ _ below, UInt64.toNat_mod]
  simp only [Int.toNat_natCast, Nat.toUInt64_eq, UInt64.toNat_ofNat', UInt64.reduceToNat]
  omega

theorem mapM_secondsToUnsignedMillis (field : String) (ms : Option UInt64) :
    (ms.map fun ms => Int64.ofNat (ms.toNat / 1000)).mapM (secondsToUnsignedMillis field) =
      .ok (ms.map fun ms => ms - ms % 1000) := by
  cases ms with
  | none => rfl
  | some ms => simp [Option.mapM, secondsToUnsignedMillis_ofNat]

theorem secondsToUnsignedMillis_eq_ok {field : String} {s : Int64} {ms : UInt64}
    (h : secondsToUnsignedMillis field s = .ok ms) : 0 ≤ s.toInt ∧ ms.toNat = s.toInt.toNat * 1000 := by
  unfold secondsToUnsignedMillis at h
  split at h
  · cases h
  · split at h
    · cases h
    · rename_i nonneg small
      cases h
      simp only [Nat.pow_eq, Nat.reducePow] at small
      simp only [Nat.toUInt64_eq, UInt64.toNat_ofNat']
      omega

theorem unsignedMillisToSeconds_of_secondsToUnsignedMillis {field field' : String} {s : Int64}
    {ms : UInt64} (h : secondsToUnsignedMillis field s = .ok ms) :
    unsignedMillisToSeconds field' ms = .ok s := by
  obtain ⟨nonneg, value⟩ := secondsToUnsignedMillis_eq_ok h
  have := s.toInt_lt
  rw [unsignedMillisToSeconds_eq, value, Nat.mul_div_cancel _ (by decide)]
  congr 1
  rw [← Int64.toInt_inj, Int64.toInt_ofNat_of_lt (by omega)]
  omega

theorem mapM_unsignedMillisToSeconds_of {field field' : String} {s : Option Int64}
    {ms : Option UInt64} (h : s.mapM (secondsToUnsignedMillis field) = .ok ms) :
    ms.mapM (unsignedMillisToSeconds field') = .ok s := by
  cases s with
  | none =>
    cases h
    rfl
  | some s =>
    cases converted : secondsToUnsignedMillis field s with
    | error f => simp [Option.mapM, converted] at h
    | ok m =>
      simp only [Option.mapM, converted] at h
      cases h
      simp [Option.mapM, unsignedMillisToSeconds_of_secondsToUnsignedMillis converted]

/-! ## Entities -/

theorem bookToOrderbook_of (type : OrderbookUpdateType) {b : BookEntry} {t : Int64}
    (known : b.instrumentType.known = true)
    (converted : secondsToMillis "timestamp" b.base.timestamp = .ok t) :
    bookToOrderbook type b = .ok
      { source := b.base.source, instrumentType := b.instrumentType, pair := b.pair, type := type,
        data := { updateId := b.lastUpdateId, bids := b.bids, asks := b.asks }, timestamp := t } := by
  unfold bookToOrderbook
  rw [Ordinal.check_of_known known, converted]
  rfl

theorem orderbookToBook_eq {want : OrderbookUpdateType} {e : OrderbookEntry} (same : e.type = want)
    (typeKnown : want.known = true) (known : e.instrumentType.known = true) (publisher : Bytes) :
    orderbookToBook want e publisher = .ok
      { base := { timestamp := millisToSeconds e.timestamp, source := e.source, publisher := publisher },
        instrumentType := e.instrumentType, pair := e.pair, lastUpdateId := e.data.updateId,
        bids := e.data.bids, asks := e.data.asks } := by
  subst same
  unfold orderbookToBook
  rw [Ordinal.check_of_known typeKnown, Ordinal.check_of_known known]
  simp only [Failure.wrap_ok, ne_eq, not_true_eq_false, if_false]
  rfl

theorem checkDepth_of_known {t : InstrumentType} {chain : Option Chain} (known : t.known = true)
    (chainKnown : ∀ c ∈ chain, c.known = true) : checkDepth t chain = .ok () := by
  unfold checkDepth
  rw [Ordinal.check_of_known known]
  cases chain with
  | none => rfl
  | some c => exact Ordinal.check_of_known (chainKnown c rfl)

theorem depthToEntry_eq {d : LegacyDepth} (known : d.instrumentType.known = true)
    (chainKnown : ∀ c ∈ d.chain, c.known = true) (timestamp : Int64) :
    depthToEntry d timestamp = .ok
      { source := d.source, instrumentType := d.instrumentType, pair := d.pair, depth := d.depth,
        chain := d.chain, timestamp := timestamp } := by
  unfold depthToEntry
  rw [checkDepth_of_known known chainKnown]
  rfl

theorem entryToDepth_eq {e : DepthEntry} (known : e.instrumentType.known = true)
    (chainKnown : ∀ c ∈ e.chain, c.known = true) :
    entryToDepth e = .ok
      { depth := e.depth, pair := e.pair, source := e.source, instrumentType := e.instrumentType,
        chain := e.chain } := by
  unfold entryToDepth
  rw [checkDepth_of_known known chainKnown]
  rfl

theorem marketToPrice_of {m : MarketEntry} {pair : Pair} {t : Int64} {expiration : Option Int64}
    (parsed : Pair.parse m.pairId = .ok pair)
    (converted : secondsToMillis "timestamp" m.base.timestamp = .ok t)
    (expires : m.expirationTimestampMs.mapM (unsignedMillisToSeconds "expiration_timestamp_ms") =
      .ok expiration) :
    marketToPrice m = .ok
      { source := m.base.source, chain := none, pair := pair, timestamp := t, price := m.price,
        volume := m.volume, expiration := expiration } := by
  unfold marketToPrice
  rw [parsed, converted, expires]
  rfl

/-- A market entry becomes a price entry exactly when its pair reads and its timestamp has a
millisecond form; its expiration is always cut to seconds. -/
theorem marketToPrice_eq_ok {m : MarketEntry} {p : PriceEntry} (h : marketToPrice m = .ok p) :
    ∃ pair, Pair.parse m.pairId = .ok pair ∧
      (-2 ^ 63 ≤ m.base.timestamp.toInt * 1000 ∧ m.base.timestamp.toInt * 1000 < 2 ^ 63) ∧
      p = { source := m.base.source, chain := none, pair := pair,
            timestamp := Int64.ofInt (m.base.timestamp.toInt * 1000), price := m.price,
            volume := m.volume,
            expiration := m.expirationTimestampMs.map fun ms => Int64.ofNat (ms.toNat / 1000) } := by
  unfold marketToPrice at h
  rw [mapM_unsignedMillisToSeconds] at h
  cases parsed : Pair.parse m.pairId with
  | error f => rw [parsed] at h; cases h
  | ok pair =>
    cases converted : secondsToMillis "timestamp" m.base.timestamp with
    | error f => rw [parsed, converted] at h; cases h
    | ok t =>
      rw [parsed, converted] at h
      obtain ⟨fits, rfl⟩ := secondsToMillis_eq_ok converted
      cases h
      exact ⟨pair, rfl, fits, rfl⟩

theorem priceToMarket_of {p : PriceEntry} {expiration : Option UInt64}
    (expires : p.expiration.mapM (secondsToUnsignedMillis "expiration") = .ok expiration)
    (publisher : Bytes) :
    priceToMarket p publisher = .ok
      { base := { timestamp := millisToSeconds p.timestamp, source := p.source, publisher := publisher },
        pairId := p.pair.render, price := p.price, volume := p.volume,
        expirationTimestampMs := expiration } := by
  unfold priceToMarket
  rw [expires]
  rfl

/-- A price entry becomes a market entry exactly when its expiration has an unsigned millisecond
form. -/
theorem priceToMarket_isOk {p : PriceEntry} {publisher : Bytes} {m : MarketEntry}
    (h : priceToMarket p publisher = .ok m) :
    ∃ expiration, p.expiration.mapM (secondsToUnsignedMillis "expiration") = .ok expiration := by
  unfold priceToMarket at h
  cases expires : p.expiration.mapM (secondsToUnsignedMillis "expiration") with
  | error f => rw [expires] at h; cases h
  | ok expiration => exact ⟨expiration, rfl⟩

/-! ## Migration of each kind -/

section Dispatch

variable (r : Bool) (opts : Options)

theorem migrate_market (m : MarketEntry) :
    migrate (.entity ⟨.market, m⟩) r opts = (marketToPrice m).map fun v => ⟨.price, v⟩ := rfl

theorem migrate_snapshot (b : BookEntry) :
    migrate (.entity ⟨.snapshot, b⟩) r opts = (bookToOrderbook snapshotType b).map fun v => ⟨.orderbook, v⟩ :=
  rfl

theorem migrate_update (b : BookEntry) :
    migrate (.entity ⟨.update, b⟩) r opts = (bookToOrderbook updateType b).map fun v => ⟨.orderbook, v⟩ :=
  rfl

theorem migrate_legacyDepth (d : LegacyDepth) :
    migrate (.entity ⟨.legacyDepth, d⟩) r opts =
      (depthToEntry d opts.depthTimestampMs).map fun v => ⟨.depth, v⟩ := rfl

theorem migrate_price (p : PriceEntry) :
    migrate (.entity ⟨.price, p⟩) r opts = (priceToMarket p opts.publisher).map fun v => ⟨.market, v⟩ :=
  rfl

theorem migrate_depth (e : DepthEntry) :
    migrate (.entity ⟨.depth, e⟩) r opts = (entryToDepth e).map fun v => ⟨.legacyDepth, v⟩ := rfl

/-- A current book goes to the legacy table of its own type: an update to the updates, any other
type to the snapshots. -/
theorem migrate_orderbook (e : OrderbookEntry) :
    migrate (.entity ⟨.orderbook, e⟩) r opts =
      if e.type = updateType then (orderbookToBook updateType e opts.publisher).map fun v => ⟨.update, v⟩
      else (orderbookToBook snapshotType e opts.publisher).map fun v => ⟨.snapshot, v⟩ := rfl

end Dispatch

/-! ## Legacy, current, legacy -/

/-- A known legacy book whose timestamp has a millisecond form becomes a current book of a known
type and comes back exactly, levels and missing sides as they were. -/
theorem book_current_legacy {type : OrderbookUpdateType} (typeKnown : type.known = true)
    {b : BookEntry} (known : b.instrumentType.known = true)
    (fits : -2 ^ 63 ≤ b.base.timestamp.toInt * 1000 ∧ b.base.timestamp.toInt * 1000 < 2 ^ 63) :
    ∃ e, e.type = type ∧ bookToOrderbook type b = .ok e ∧ orderbookToBook type e b.base.publisher = .ok b := by
  refine ⟨_, rfl, bookToOrderbook_of type known (secondsToMillis_of_fits _ fits), ?_⟩
  refine (orderbookToBook_eq ?_ typeKnown known _).trans ?_
  · rfl
  · rw [millisToSeconds_ofInt fits]

theorem snapshot_migrates_back {b : BookEntry} (known : b.instrumentType.known = true)
    (fits : -2 ^ 63 ≤ b.base.timestamp.toInt * 1000 ∧ b.base.timestamp.toInt * 1000 < 2 ^ 63)
    (r r' : Bool) (opts opts' : Options) :
    (migrate (.entity ⟨.snapshot, b⟩) r opts >>= fun x =>
      migrate (.entity x) r' { opts' with publisher := b.base.publisher }) = .ok ⟨.snapshot, b⟩ := by
  obtain ⟨e, snapshot, there, back⟩ := book_current_legacy (by decide : snapshotType.known = true) known fits
  rw [migrate_snapshot, there]
  show migrate (.entity ⟨.orderbook, e⟩) r' { opts' with publisher := b.base.publisher } = _
  rw [migrate_orderbook, if_neg (by rw [snapshot]; decide), back]
  rfl

theorem update_migrates_back {b : BookEntry} (known : b.instrumentType.known = true)
    (fits : -2 ^ 63 ≤ b.base.timestamp.toInt * 1000 ∧ b.base.timestamp.toInt * 1000 < 2 ^ 63)
    (r r' : Bool) (opts opts' : Options) :
    (migrate (.entity ⟨.update, b⟩) r opts >>= fun x =>
      migrate (.entity x) r' { opts' with publisher := b.base.publisher }) = .ok ⟨.update, b⟩ := by
  obtain ⟨e, update, there, back⟩ := book_current_legacy (by decide : updateType.known = true) known fits
  rw [migrate_update, there]
  show migrate (.entity ⟨.orderbook, e⟩) r' { opts' with publisher := b.base.publisher } = _
  rw [migrate_orderbook, if_pos update, back]
  rfl

theorem depth_current_legacy {d : LegacyDepth} (known : d.instrumentType.known = true)
    (chainKnown : ∀ c ∈ d.chain, c.known = true) (timestamp : Int64) :
    ∃ e, depthToEntry d timestamp = .ok e ∧ entryToDepth e = .ok d :=
  ⟨_, depthToEntry_eq known chainKnown timestamp, entryToDepth_eq known chainKnown⟩

theorem legacyDepth_migrates_back {d : LegacyDepth} (known : d.instrumentType.known = true)
    (chainKnown : ∀ c ∈ d.chain, c.known = true) (r r' : Bool) (opts opts' : Options) :
    (migrate (.entity ⟨.legacyDepth, d⟩) r opts >>= fun x => migrate (.entity x) r' opts') =
      .ok ⟨.legacyDepth, d⟩ := by
  obtain ⟨e, there, back⟩ := depth_current_legacy known chainKnown opts.depthTimestampMs
  rw [migrate_legacyDepth, there]
  show migrate (.entity ⟨.depth, e⟩) r' opts' = _
  rw [migrate_depth, back]
  rfl

/-- A market entry that becomes a price entry comes back with its pair identifier spelled as the
pair it reads as, and its expiration cut to whole seconds. -/
theorem market_current_legacy {m : MarketEntry} {p : PriceEntry} (h : marketToPrice m = .ok p) :
    Pair.parse m.pairId = .ok p.pair ∧
      priceToMarket p m.base.publisher = .ok
        { m with pairId := p.pair.render,
                 expirationTimestampMs := m.expirationTimestampMs.map fun ms => ms - ms % 1000 } := by
  obtain ⟨pair, parsed, fits, rfl⟩ := marketToPrice_eq_ok h
  refine ⟨parsed, ?_⟩
  rw [priceToMarket_of (mapM_secondsToUnsignedMillis _ _), millisToSeconds_ofInt fits]

theorem market_migrates_back {m : MarketEntry} {p : PriceEntry} (h : marketToPrice m = .ok p)
    (r r' : Bool) (opts opts' : Options) :
    (migrate (.entity ⟨.market, m⟩) r opts >>= fun x =>
      migrate (.entity x) r' { opts' with publisher := m.base.publisher }) =
      .ok ⟨.market,
        { m with pairId := p.pair.render,
                 expirationTimestampMs := m.expirationTimestampMs.map fun ms => ms - ms % 1000 }⟩ := by
  rw [migrate_market, h]
  show migrate (.entity ⟨.price, p⟩) r' { opts' with publisher := m.base.publisher } = _
  rw [migrate_price, (market_current_legacy h).2]
  rfl

/-! ## Current, legacy, current -/

/-- A current book of a known instrument and a known type comes back from the legacy table of its
type with its timestamp truncated toward zero to whole seconds. -/
theorem orderbook_legacy_current {type : OrderbookUpdateType} (typeKnown : type.known = true)
    {e : OrderbookEntry} (same : e.type = type) (known : e.instrumentType.known = true)
    (publisher : Bytes) :
    ∃ b, orderbookToBook type e publisher = .ok b ∧
      bookToOrderbook type b = .ok { e with timestamp := 1000 * (e.timestamp / 1000) } := by
  subst same
  exact ⟨_, orderbookToBook_eq rfl typeKnown known publisher,
    bookToOrderbook_of _ known (secondsToMillis_millisToSeconds _ _)⟩

theorem orderbook_migrates_back {e : OrderbookEntry} (known : e.instrumentType.known = true)
    (typed : e.type = updateType ∨ e.type = snapshotType) (r r' : Bool) (opts opts' : Options) :
    (migrate (.entity ⟨.orderbook, e⟩) r opts >>= fun x => migrate (.entity x) r' opts') =
      .ok ⟨.orderbook, { e with timestamp := 1000 * (e.timestamp / 1000) }⟩ := by
  rw [migrate_orderbook]
  rcases typed with update | snapshot
  · obtain ⟨b, there, back⟩ := orderbook_legacy_current (by decide) update known opts.publisher
    rw [if_pos update, there]
    show migrate (.entity ⟨.update, b⟩) r' opts' = _
    rw [migrate_update, back]
    rfl
  · obtain ⟨b, there, back⟩ := orderbook_legacy_current (by decide) snapshot known opts.publisher
    rw [if_neg (by rw [snapshot]; decide), there]
    show migrate (.entity ⟨.snapshot, b⟩) r' opts' = _
    rw [migrate_snapshot, back]
    rfl

theorem depth_legacy_current {e : DepthEntry} (known : e.instrumentType.known = true)
    (chainKnown : ∀ c ∈ e.chain, c.known = true) (timestamp : Int64) :
    ∃ d, entryToDepth e = .ok d ∧ depthToEntry d timestamp = .ok { e with timestamp := timestamp } :=
  ⟨_, entryToDepth_eq known chainKnown, depthToEntry_eq known chainKnown timestamp⟩

theorem depth_migrates_back {e : DepthEntry} (known : e.instrumentType.known = true)
    (chainKnown : ∀ c ∈ e.chain, c.known = true) (r r' : Bool) (opts opts' : Options) :
    (migrate (.entity ⟨.depth, e⟩) r opts >>= fun x => migrate (.entity x) r' opts') =
      .ok ⟨.depth, { e with timestamp := opts'.depthTimestampMs }⟩ := by
  obtain ⟨d, there, back⟩ := depth_legacy_current known chainKnown opts'.depthTimestampMs
  rw [migrate_depth, there]
  show migrate (.entity ⟨.legacyDepth, d⟩) r' opts' = _
  rw [migrate_legacyDepth, back]
  rfl

/-- A price entry that becomes a market entry and whose pair is spelled canonically comes back
without its chain and with its timestamp truncated toward zero to whole seconds. -/
theorem price_legacy_current {p : PriceEntry} {publisher : Bytes}
    (converts : ∃ m, priceToMarket p publisher = .ok m) (canonical : Pair.parse p.pair.render = .ok p.pair) :
    ∃ m, priceToMarket p publisher = .ok m ∧
      marketToPrice m = .ok { p with chain := none, timestamp := 1000 * (p.timestamp / 1000) } := by
  obtain ⟨_, converted⟩ := converts
  obtain ⟨expiration, expires⟩ := priceToMarket_isOk converted
  exact ⟨_, priceToMarket_of expires publisher, marketToPrice_of canonical
    (secondsToMillis_millisToSeconds _ _) (mapM_unsignedMillisToSeconds_of expires)⟩

theorem price_migrates_back {p : PriceEntry} (r r' : Bool) (opts opts' : Options)
    (converts : ∃ m, priceToMarket p opts.publisher = .ok m)
    (canonical : Pair.parse p.pair.render = .ok p.pair) :
    (migrate (.entity ⟨.price, p⟩) r opts >>= fun x => migrate (.entity x) r' opts') =
      .ok ⟨.price, { p with chain := none, timestamp := 1000 * (p.timestamp / 1000) }⟩ := by
  obtain ⟨m, there, back⟩ := price_legacy_current converts canonical
  rw [migrate_price, there]
  show migrate (.entity ⟨.market, m⟩) r' opts' = _
  rw [migrate_market, back]
  rfl

/-! ## Both ways -/

/-- Legacy entries migrate to the current tables and back as they were, as far as the units allow:
a book of a known instrument whose timestamp has a millisecond form comes back exactly, as a
snapshot or as an update; a depth reading of known enumerations always comes back; and a market
entry that migrates at all comes back with its pair identifier spelled as the pair it reads as and
its expiration cut to whole seconds. The same holds of `migrate` applied twice, the second time
with the original publisher. -/
theorem legacy_current_legacy (r r' : Bool) (opts opts' : Options) :
    (∀ b : BookEntry, b.instrumentType.val.toNat < 2 →
        -2 ^ 63 ≤ b.base.timestamp.toInt * 1000 → b.base.timestamp.toInt * 1000 < 2 ^ 63 →
        (∃ e, bookToOrderbook snapshotType b = .ok e ∧
          orderbookToBook snapshotType e b.base.publisher = .ok b) ∧
        (∃ e, bookToOrderbook updateType b = .ok e ∧
          orderbookToBook updateType e b.base.publisher = .ok b) ∧
        (migrate (.entity ⟨.snapshot, b⟩) r opts >>= fun x =>
          migrate (.entity x) r' { opts' with publisher := b.base.publisher }) = .ok ⟨.snapshot, b⟩ ∧
        (migrate (.entity ⟨.update, b⟩) r opts >>= fun x =>
          migrate (.entity x) r' { opts' with publisher := b.base.publisher }) = .ok ⟨.update, b⟩) ∧
    (∀ d : LegacyDepth, d.instrumentType.known = true → (∀ c ∈ d.chain, c.known = true) →
        (∀ timestamp, ∃ e, depthToEntry d timestamp = .ok e ∧ entryToDepth e = .ok d) ∧
        (migrate (.entity ⟨.legacyDepth, d⟩) r opts >>= fun x => migrate (.entity x) r' opts') =
          .ok ⟨.legacyDepth, d⟩) ∧
    (∀ m p, marketToPrice m = .ok p →
        Pair.parse m.pairId = .ok p.pair ∧
        priceToMarket p m.base.publisher = .ok
          { m with pairId := p.pair.render,
                   expirationTimestampMs := m.expirationTimestampMs.map fun ms => ms - ms % 1000 } ∧
        (migrate (.entity ⟨.market, m⟩) r opts >>= fun x =>
          migrate (.entity x) r' { opts' with publisher := m.base.publisher }) = .ok ⟨.market,
          { m with pairId := p.pair.render,
                   expirationTimestampMs := m.expirationTimestampMs.map fun ms => ms - ms % 1000 }⟩) := by
  refine ⟨fun b small low high => ?_, fun d known chainKnown => ?_, fun m p converted => ?_⟩
  · have known : b.instrumentType.known = true := (Ordinal.known_iff _).2 small
    obtain ⟨e, -, there, back⟩ := book_current_legacy (by decide : snapshotType.known = true) known ⟨low, high⟩
    obtain ⟨e', -, there', back'⟩ := book_current_legacy (by decide : updateType.known = true) known ⟨low, high⟩
    exact ⟨⟨e, there, back⟩, ⟨e', there', back'⟩, snapshot_migrates_back known ⟨low, high⟩ r r' opts opts',
      update_migrates_back known ⟨low, high⟩ r r' opts opts'⟩
  · exact ⟨depth_current_legacy known chainKnown, legacyDepth_migrates_back known chainKnown r r' opts opts'⟩
  · exact ⟨(market_current_legacy converted).1, (market_current_legacy converted).2,
      market_migrates_back converted r r' opts opts'⟩

/-- A book at the earliest second that has a millisecond form, a depth reading on the last chain,
and a market entry spelled in lowercase with a dash and expiring just short of two seconds. -/
theorem legacy_current_legacy_extremes :
    let b : BookEntry :=
      { base := { timestamp := -9223372036854775, publisher := [0x70] }, instrumentType := ⟨1⟩,
        bids := some [] }
    let d : LegacyDepth := { chain := some ⟨13⟩ }
    let m : MarketEntry := { pairId := [0x65, 0x2D, 0x55], expirationTimestampMs := some 1999 }
    let p : PriceEntry := { pair := ⟨[0x45], [0x55]⟩, expiration := some 1 }
    (migrate (.entity ⟨.snapshot, b⟩) false {} >>= fun x =>
        migrate (.entity x) false { publisher := [0x70] }) = .ok ⟨.snapshot, b⟩ ∧
      (migrate (.entity ⟨.legacyDepth, d⟩) false {} >>= fun x => migrate (.entity x) false {}) =
        .ok ⟨.legacyDepth, d⟩ ∧
      marketToPrice m = .ok p ∧
      (migrate (.entity ⟨.market, m⟩) false {} >>= fun x => migrate (.entity x) false {}) =
        .ok ⟨.market, { m with pairId := [0x45, 0x2F, 0x55], expirationTimestampMs := some 1000 }⟩ := by
  intro b d m p
  have converted : marketToPrice m = .ok p := Except.eq_ok_of_toOption (by decide +kernel)
  have whole := legacy_current_legacy false false {} {}
  exact ⟨(whole.1 b (by decide) (by decide) (by decide)).2.2.1,
    (whole.2.1 d (by decide) (by decide)).2, converted, (whole.2.2 m p converted).2.2⟩

/-- Current entries migrate to the legacy tables and back losing only what those tables cannot
hold: a book of a known instrument and type comes back with its timestamp cut toward zero to whole
seconds (64-bit division truncates), a depth reading of known enumerations with the time the
second migration gives it, and a price entry that migrates at all and has a canonical pair
without its chain and with its timestamp cut the same way. -/
theorem current_legacy_current (r r' : Bool) (opts opts' : Options) :
    (∀ e : OrderbookEntry, e.instrumentType.known = true → (e.type = updateType ∨ e.type = snapshotType) →
        (migrate (.entity ⟨.orderbook, e⟩) r opts >>= fun x => migrate (.entity x) r' opts') =
          .ok ⟨.orderbook, { e with timestamp := 1000 * (e.timestamp / 1000) }⟩) ∧
    (∀ e : DepthEntry, e.instrumentType.known = true → (∀ c ∈ e.chain, c.known = true) →
        (migrate (.entity ⟨.depth, e⟩) r opts >>= fun x => migrate (.entity x) r' opts') =
          .ok ⟨.depth, { e with timestamp := opts'.depthTimestampMs }⟩) ∧
    (∀ p : PriceEntry, (∃ m, priceToMarket p opts.publisher = .ok m) →
        Pair.parse p.pair.render = .ok p.pair →
        (migrate (.entity ⟨.price, p⟩) r opts >>= fun x => migrate (.entity x) r' opts') =
          .ok ⟨.price, { p with chain := none, timestamp := 1000 * (p.timestamp / 1000) }⟩) :=
  ⟨fun _ known typed => orderbook_migrates_back known typed r r' opts opts',
    fun _ known chainKnown => depth_migrates_back known chainKnown r r' opts opts',
    fun _ converts canonical => price_migrates_back r r' opts opts' converts canonical⟩

/-- A book at the earliest millisecond, a depth reading given a new time, and a price a little
before the epoch expiring at the last second that has an unsigned millisecond form. -/
theorem current_legacy_current_extremes :
    let e : OrderbookEntry := { instrumentType := ⟨1⟩, type := ⟨1⟩, timestamp := -9223372036854775808 }
    let t : DepthEntry := { chain := some ⟨0⟩, timestamp := 5 }
    let p : PriceEntry := { pair := ⟨[0x45], [0x55]⟩, timestamp := -1999, expiration := some 18446744073709551 }
    (migrate (.entity ⟨.orderbook, e⟩) false {} >>= fun x =>
        migrate (.entity x) false { depthTimestampMs := 7 }) =
        .ok ⟨.orderbook, { e with timestamp := -9223372036854775000 }⟩ ∧
      (migrate (.entity ⟨.depth, t⟩) false {} >>= fun x =>
        migrate (.entity x) false { depthTimestampMs := 7 }) = .ok ⟨.depth, { t with timestamp := 7 }⟩ ∧
      (migrate (.entity ⟨.price, p⟩) false {} >>= fun x =>
        migrate (.entity x) false { depthTimestampMs := 7 }) =
        .ok ⟨.price, { p with chain := none, timestamp := -1000 }⟩ := by
  intro e t p
  have whole := current_legacy_current false false {} { depthTimestampMs := 7 }
  have canonical : Pair.parse p.pair.render = .ok p.pair := Except.eq_ok_of_toOption (by decide +kernel)
  have bookTime : (1000 : Int64) * (e.timestamp / 1000) = -9223372036854775000 := by decide
  have priceTime : (1000 : Int64) * (p.timestamp / 1000) = -1000 := by decide
  refine ⟨?_, whole.2.1 t (by decide) (by decide), ?_⟩
  · rw [← bookTime]
    exact whole.1 e (by decide) (.inr rfl)
  · rw [← priceTime]
    exact whole.2.2 p ⟨_, rfl⟩ canonical

end Migration

end MarketData
