import MarketData.Proofs.Migration

/-!
# When a migration fails

Each conversion between the generations checks its input in a fixed order and fails at the first
check that does not hold, with a failure of the kind that check names. An input that passes every
check converts, and its times are converted exactly: seconds are multiplied by a thousand with no
wrap around, milliseconds are divided by a thousand toward zero.

* A market entry fails on a pair identifier that does not read (`invalidPair`), then on a
  timestamp whose thousandfold leaves the 64-bit integers (`rangeExceeded`). Its expiration,
  unsigned milliseconds cut to whole seconds, always fits, so no expiration makes it fail.
* A price entry fails only on an expiration that is negative or whose thousandfold passes
  `2^64 - 1` (`rangeExceeded`); its timestamp is divided, which cannot overflow.
* A legacy book fails on an unknown instrument type (`unknownEnumerant`), then on its timestamp.
* A current book fails on an unknown update type (`unknownEnumerant`), then on a type other than
  that of the table it goes to (`unsupportedType`), then on an unknown instrument type.
* A depth reading fails only on an unknown instrument type or chain (`unknownEnumerant`).
* Migration has no counterpart for the other entities, for lists and for parts
  (`unsupportedType`).

The main statement is `migration_fails_only_on_unrepresentable`.
-/

namespace MarketData

theorem Pair.parse_eq_error {id : Bytes} {f : Failure} (refused : Pair.parse id = .error f) :
    f.code? = some .invalidPair := by
  unfold Pair.parse at refused
  dsimp only at refused
  split at refused
  · split at refused
    · cases refused
      rfl
    · cases refused
  · cases refused
    rfl

theorem Ordinal.check_of_unknown {e : Enumeration} (o : Ordinal e)
    (unknown : e.names.length ≤ o.val.toNat) : FailsWith o.check .unknownEnumerant := by
  unfold Ordinal.check Registry.check
  rw [if_neg (by rw [← Ordinal.known, Ordinal.known_iff]; omega)]
  exact failsWith_coded _ _

namespace Migration

/-- A thousand times the seconds lies in the range of 64-bit signed integers. -/
def MillisFit (s : Int64) : Prop := -2 ^ 63 ≤ s.toInt * 1000 ∧ s.toInt * 1000 < 2 ^ 63

/-- The seconds are not negative, and a thousand times them is at most `2^64 - 1`. -/
def UnsignedMillisFit (s : Int64) : Prop := 0 ≤ s.toInt ∧ s.toInt * 1000 ≤ 2 ^ 64 - 1

/-! ## Units -/

theorem secondsToMillis_of_not_fits (field : String) {s : Int64} (outside : ¬MillisFit s) :
    FailsWith (secondsToMillis field s) .rangeExceeded := by
  unfold MillisFit at outside
  unfold secondsToMillis
  rw [millisLimit_eq, if_pos (by simp only [Bool.or_eq_true, decide_eq_true_eq]; omega)]
  exact failsWith_coded _ _

theorem secondsToUnsignedMillis_of_fits (field : String) {s : Int64} (fits : UnsignedMillisFit s) :
    ∃ ms : UInt64, secondsToUnsignedMillis field s = .ok ms ∧ ms.toNat = s.toInt.toNat * 1000 := by
  obtain ⟨nonneg, small⟩ := fits
  unfold secondsToUnsignedMillis
  rw [if_neg (by omega), if_neg (by simp only [Nat.pow_eq, Nat.reducePow]; omega)]
  refine ⟨_, rfl, ?_⟩
  simp only [Nat.toUInt64_eq, UInt64.toNat_ofNat']
  omega

theorem secondsToUnsignedMillis_of_not_fits (field : String) {s : Int64} (outside : ¬UnsignedMillisFit s) :
    FailsWith (secondsToUnsignedMillis field s) .rangeExceeded := by
  unfold UnsignedMillisFit at outside
  unfold secondsToUnsignedMillis
  by_cases negative : s.toInt < 0
  · rw [if_pos negative]
    exact failsWith_coded _ _
  · rw [if_neg negative, if_pos (by simp only [Nat.pow_eq, Nat.reducePow]; omega)]
    exact failsWith_coded _ _

/-! ## Market and price entries -/

theorem marketToPrice_of_pair_error {m : MarketEntry} {f : Failure}
    (refused : Pair.parse m.pairId = .error f) : FailsWith (marketToPrice m) .invalidPair := by
  refine ⟨.within "market entry" f, ?_, (Failure.code?_within _ _).trans (Pair.parse_eq_error refused)⟩
  unfold marketToPrice
  rw [refused]
  rfl

theorem marketToPrice_of_not_fits {m : MarketEntry} {pair : Pair} (parsed : Pair.parse m.pairId = .ok pair)
    (outside : ¬MillisFit m.base.timestamp) : FailsWith (marketToPrice m) .rangeExceeded := by
  unfold marketToPrice
  rw [parsed, ok_bind]
  exact ((secondsToMillis_of_not_fits _ outside).bind _).wrap _

/-- Past the pair and the timestamp nothing fails: the expiration is cut to seconds, which always
fit. -/
theorem marketToPrice_of_fits {m : MarketEntry} {pair : Pair} (parsed : Pair.parse m.pairId = .ok pair)
    (fits : MillisFit m.base.timestamp) :
    ∃ p, marketToPrice m = .ok p ∧ p.timestamp.toInt = m.base.timestamp.toInt * 1000 ∧
      p.expiration.map Int64.toInt = m.expirationTimestampMs.map fun ms => ((ms.toNat / 1000 : Nat) : Int) := by
  refine ⟨_, marketToPrice_of parsed (secondsToMillis_of_fits _ fits) (mapM_unsignedMillisToSeconds _ _),
    Int64.toInt_ofInt_of_le fits.1 fits.2, ?_⟩
  cases m.expirationTimestampMs with
  | none => rfl
  | some ms =>
    have := ms.toNat_lt
    simp only [Option.map_some, Option.some.injEq]
    exact Int64.toInt_ofNat_of_lt (by simp at this; omega)

theorem priceToMarket_of_not_fits {p : PriceEntry} {s : Int64} (expires : p.expiration = some s)
    (outside : ¬UnsignedMillisFit s) (publisher : Bytes) :
    FailsWith (priceToMarket p publisher) .rangeExceeded := by
  obtain ⟨f, refused, kind⟩ := secondsToUnsignedMillis_of_not_fits "expiration" outside
  refine ⟨.within "price entry" f, ?_, kind⟩
  unfold priceToMarket
  rw [expires]
  simp [Option.mapM, refused, Failure.wrap]

theorem priceToMarket_of_fits {p : PriceEntry} (fits : ∀ s, p.expiration = some s → UnsignedMillisFit s)
    (publisher : Bytes) :
    ∃ m, priceToMarket p publisher = .ok m ∧ m.base.timestamp.toInt = p.timestamp.toInt.tdiv 1000 ∧
      m.expirationTimestampMs.map UInt64.toNat = p.expiration.map fun s => s.toInt.toNat * 1000 := by
  cases expires : p.expiration with
  | none =>
    exact ⟨_, priceToMarket_of (by rw [expires]; rfl) publisher, toInt_millisToSeconds _, rfl⟩
  | some s =>
    obtain ⟨ms, converted, value⟩ := secondsToUnsignedMillis_of_fits "expiration" (fits s expires)
    have expiration : p.expiration.mapM (secondsToUnsignedMillis "expiration") = .ok (some ms) := by
      rw [expires]
      simp [Option.mapM, converted]
    refine ⟨_, priceToMarket_of expiration publisher, toInt_millisToSeconds _, ?_⟩
    simp [value]

/-! ## Books -/

theorem bookToOrderbook_of_unknown (type : OrderbookUpdateType) {b : BookEntry}
    (unknown : 2 ≤ b.instrumentType.val.toNat) : FailsWith (bookToOrderbook type b) .unknownEnumerant := by
  unfold bookToOrderbook
  exact ((Ordinal.check_of_unknown b.instrumentType unknown).bind _).wrap _

theorem bookToOrderbook_of_not_fits (type : OrderbookUpdateType) {b : BookEntry}
    (known : b.instrumentType.val.toNat < 2) (outside : ¬MillisFit b.base.timestamp) :
    FailsWith (bookToOrderbook type b) .rangeExceeded := by
  unfold bookToOrderbook
  rw [Ordinal.check_of_known ((Ordinal.known_iff _).2 known), ok_bind]
  exact ((secondsToMillis_of_not_fits _ outside).bind _).wrap _

theorem bookToOrderbook_of_fits (type : OrderbookUpdateType) {b : BookEntry}
    (known : b.instrumentType.val.toNat < 2) (fits : MillisFit b.base.timestamp) :
    ∃ e, bookToOrderbook type b = .ok e ∧ e.timestamp.toInt = b.base.timestamp.toInt * 1000 :=
  ⟨_, bookToOrderbook_of type ((Ordinal.known_iff _).2 known) (secondsToMillis_of_fits _ fits),
    Int64.toInt_ofInt_of_le fits.1 fits.2⟩

theorem orderbookToBook_of_unknown_type (want : OrderbookUpdateType) {e : OrderbookEntry}
    (unknown : 2 ≤ e.type.val.toNat) (publisher : Bytes) :
    FailsWith (orderbookToBook want e publisher) .unknownEnumerant := by
  unfold orderbookToBook
  exact ((Ordinal.check_of_unknown e.type unknown).wrap _).bind _

theorem orderbookToBook_of_other_type {want : OrderbookUpdateType} {e : OrderbookEntry}
    (known : e.type.val.toNat < 2) (other : e.type ≠ want) (publisher : Bytes) :
    FailsWith (orderbookToBook want e publisher) .unsupportedType := by
  unfold orderbookToBook
  rw [Ordinal.check_of_known ((Ordinal.known_iff _).2 known), Failure.wrap_ok, ok_bind, if_pos other]
  exact (failsWith_coded _ _).bind _

theorem orderbookToBook_of_unknown_instrument {want : OrderbookUpdateType} {e : OrderbookEntry}
    (same : e.type = want) (typeKnown : want.val.toNat < 2) (unknown : 2 ≤ e.instrumentType.val.toNat)
    (publisher : Bytes) : FailsWith (orderbookToBook want e publisher) .unknownEnumerant := by
  subst same
  unfold orderbookToBook
  rw [Ordinal.check_of_known ((Ordinal.known_iff _).2 typeKnown), Failure.wrap_ok, ok_bind,
    if_neg (fun other => other rfl)]
  exact ((Ordinal.check_of_unknown e.instrumentType unknown).wrap _).bind _

theorem orderbookToBook_of_known {want : OrderbookUpdateType} {e : OrderbookEntry} (same : e.type = want)
    (typeKnown : want.val.toNat < 2) (known : e.instrumentType.val.toNat < 2) (publisher : Bytes) :
    ∃ b, orderbookToBook want e publisher = .ok b ∧ b.base.timestamp.toInt = e.timestamp.toInt.tdiv 1000 :=
  ⟨_, orderbookToBook_eq same ((Ordinal.known_iff _).2 typeKnown) ((Ordinal.known_iff _).2 known) publisher,
    toInt_millisToSeconds _⟩

/-! ## Depth readings -/

/-- An instrument type or a chain past its registry. -/
def UnknownDepthEnums (t : InstrumentType) (chain : Option Chain) : Prop :=
  2 ≤ t.val.toNat ∨ ∃ c, chain = some c ∧ 14 ≤ c.val.toNat

theorem checkDepth_of_unknown {t : InstrumentType} {chain : Option Chain} (unknown : UnknownDepthEnums t chain) :
    FailsWith (checkDepth t chain) .unknownEnumerant := by
  unfold checkDepth
  rcases unknown with instrument | ⟨c, rfl, past⟩
  · exact (Ordinal.check_of_unknown t instrument).bind _
  · by_cases known : t.val.toNat < 2
    · rw [Ordinal.check_of_known ((Ordinal.known_iff _).2 known), ok_bind]
      exact Ordinal.check_of_unknown c past
    · exact (Ordinal.check_of_unknown t (by show 2 ≤ _; omega)).bind _

theorem checkDepth_eq_ok {t : InstrumentType} {chain : Option Chain} (known : ¬UnknownDepthEnums t chain) :
    checkDepth t chain = .ok () := by
  refine Migration.checkDepth_of_known ((Ordinal.known_iff _).2 ?_) fun c member => (Ordinal.known_iff _).2 ?_
  · show t.val.toNat < 2
    exact Nat.lt_of_not_le fun past => known (.inl past)
  · show c.val.toNat < 14
    exact Nat.lt_of_not_le fun past => known (.inr ⟨c, member, past⟩)

theorem depthToEntry_of_unknown {d : LegacyDepth} (unknown : UnknownDepthEnums d.instrumentType d.chain)
    (timestamp : Int64) : FailsWith (depthToEntry d timestamp) .unknownEnumerant := by
  unfold depthToEntry
  exact ((checkDepth_of_unknown unknown).wrap _).bind _

theorem depthToEntry_of_known {d : LegacyDepth} (known : ¬UnknownDepthEnums d.instrumentType d.chain)
    (timestamp : Int64) : ∃ e, depthToEntry d timestamp = .ok e := by
  unfold depthToEntry
  rw [checkDepth_eq_ok known]
  exact ⟨_, rfl⟩

theorem entryToDepth_of_unknown {e : DepthEntry} (unknown : UnknownDepthEnums e.instrumentType e.chain) :
    FailsWith (entryToDepth e) .unknownEnumerant := by
  unfold entryToDepth
  exact ((checkDepth_of_unknown unknown).wrap _).bind _

theorem entryToDepth_of_known {e : DepthEntry} (known : ¬UnknownDepthEnums e.instrumentType e.chain) :
    ∃ d, entryToDepth e = .ok d := by
  unfold entryToDepth
  rw [checkDepth_eq_ok known]
  exact ⟨_, rfl⟩

/-! ## Migration -/

/-- The types of the entities that have a counterpart in the other generation. -/
def migratable : List ValueType :=
  [.entity .market, .entity .snapshot, .entity .update, .entity .legacyDepth, .entity .price,
    .entity .orderbook, .entity .depth]

theorem migrate_of_not_migratable {s : Subject} (other : s.type ∉ migratable) (r : Bool) (opts : Options) :
    FailsWith (migrate s r opts) .unsupportedType := by
  cases s with
  | entity e =>
    obtain ⟨k, v⟩ := e
    -- the seven kinds with a counterpart contradict `other`; the rest reach the last case
    cases k
    all_goals first
      | exact failsWith_coded _ _
      | exact absurd (by simp [migratable, Subject.type]) other
  | batch k es => exact failsWith_coded _ _
  | part p => exact failsWith_coded _ _

/-- Every conversion between the generations fails at the first of its checks that its input does
not pass, with a failure of that check's kind, and converts its times exactly when all pass:

* a market entry fails on a pair identifier that does not read, then on a timestamp whose
  thousandfold leaves the 64-bit integers, and never on its expiration;
* a price entry fails only on a negative expiration or one whose thousandfold passes `2^64 - 1`;
* a legacy book fails on an unknown instrument type, then on its timestamp;
* a current book fails on an unknown update type, then on a type other than the one its legacy
  table holds, then on an unknown instrument type;
* a depth reading fails only on an unknown instrument type or chain;
* migration of any other value fails with `unsupportedType`. -/
theorem migration_fails_only_on_unrepresentable (r : Bool) (opts : Options) :
    (∀ m : MarketEntry,
      ((∃ f, Pair.parse m.pairId = .error f) → FailsWith (marketToPrice m) .invalidPair) ∧
      ((∃ pair, Pair.parse m.pairId = .ok pair) → ¬MillisFit m.base.timestamp →
        FailsWith (marketToPrice m) .rangeExceeded) ∧
      ((∃ pair, Pair.parse m.pairId = .ok pair) → MillisFit m.base.timestamp →
        ∃ p, marketToPrice m = .ok p ∧ p.timestamp.toInt = m.base.timestamp.toInt * 1000 ∧
          p.expiration.map Int64.toInt = m.expirationTimestampMs.map fun ms => ((ms.toNat / 1000 : Nat) : Int))) ∧
    (∀ (p : PriceEntry) (publisher : Bytes),
      (∀ s, p.expiration = some s → ¬UnsignedMillisFit s → FailsWith (priceToMarket p publisher) .rangeExceeded) ∧
      ((∀ s, p.expiration = some s → UnsignedMillisFit s) →
        ∃ m, priceToMarket p publisher = .ok m ∧ m.base.timestamp.toInt = p.timestamp.toInt.tdiv 1000 ∧
          m.expirationTimestampMs.map UInt64.toNat = p.expiration.map fun s => s.toInt.toNat * 1000)) ∧
    (∀ (type : OrderbookUpdateType) (b : BookEntry),
      (2 ≤ b.instrumentType.val.toNat → FailsWith (bookToOrderbook type b) .unknownEnumerant) ∧
      (b.instrumentType.val.toNat < 2 → ¬MillisFit b.base.timestamp →
        FailsWith (bookToOrderbook type b) .rangeExceeded) ∧
      (b.instrumentType.val.toNat < 2 → MillisFit b.base.timestamp →
        ∃ e, bookToOrderbook type b = .ok e ∧ e.timestamp.toInt = b.base.timestamp.toInt * 1000)) ∧
    (∀ want ∈ [snapshotType, updateType], ∀ (e : OrderbookEntry) (publisher : Bytes),
      (2 ≤ e.type.val.toNat → FailsWith (orderbookToBook want e publisher) .unknownEnumerant) ∧
      (e.type.val.toNat < 2 → e.type ≠ want → FailsWith (orderbookToBook want e publisher) .unsupportedType) ∧
      (e.type = want → 2 ≤ e.instrumentType.val.toNat →
        FailsWith (orderbookToBook want e publisher) .unknownEnumerant) ∧
      (e.type = want → e.instrumentType.val.toNat < 2 →
        ∃ b, orderbookToBook want e publisher = .ok b ∧ b.base.timestamp.toInt = e.timestamp.toInt.tdiv 1000)) ∧
    (∀ (d : LegacyDepth) (timestamp : Int64),
      (UnknownDepthEnums d.instrumentType d.chain → FailsWith (depthToEntry d timestamp) .unknownEnumerant) ∧
      (¬UnknownDepthEnums d.instrumentType d.chain → ∃ e, depthToEntry d timestamp = .ok e)) ∧
    (∀ e : DepthEntry,
      (UnknownDepthEnums e.instrumentType e.chain → FailsWith (entryToDepth e) .unknownEnumerant) ∧
      (¬UnknownDepthEnums e.instrumentType e.chain → ∃ d, entryToDepth e = .ok d)) ∧
    (∀ s : Subject, s.type ∉ migratable → FailsWith (migrate s r opts) .unsupportedType) := by
  refine ⟨fun m => ⟨?_, ?_, ?_⟩, fun p publisher => ⟨?_, ?_⟩, fun type b => ⟨?_, ?_, ?_⟩,
    fun want member e publisher => ?_, fun d timestamp => ⟨?_, ?_⟩, fun e => ⟨?_, ?_⟩,
    fun s other => migrate_of_not_migratable other r opts⟩
  · rintro ⟨f, refused⟩
    exact marketToPrice_of_pair_error refused
  · rintro ⟨pair, parsed⟩ outside
    exact marketToPrice_of_not_fits parsed outside
  · rintro ⟨pair, parsed⟩ fits
    exact marketToPrice_of_fits parsed fits
  · intro s expires outside
    exact priceToMarket_of_not_fits expires outside publisher
  · intro fits
    exact priceToMarket_of_fits fits publisher
  · exact bookToOrderbook_of_unknown type
  · exact bookToOrderbook_of_not_fits type
  · exact bookToOrderbook_of_fits type
  · -- both legacy tables hold a known type
    have typeKnown : want.val.toNat < 2 := by
      simp only [List.mem_cons, List.not_mem_nil, or_false] at member
      rcases member with rfl | rfl <;> decide
    exact ⟨fun unknown => orderbookToBook_of_unknown_type want unknown publisher,
      fun known other => orderbookToBook_of_other_type known other publisher,
      fun same unknown => orderbookToBook_of_unknown_instrument same typeKnown unknown publisher,
      fun same known => orderbookToBook_of_known same typeKnown known publisher⟩
  · exact fun unknown => depthToEntry_of_unknown unknown timestamp
  · exact fun known => depthToEntry_of_known known timestamp
  · exact entryToDepth_of_unknown
  · exact entryToDepth_of_known

/-- The last second that has a millisecond form converts and the next one fails, on both sides of
the epoch, and so does the last expiration that has an unsigned millisecond form. -/
theorem migration_boundaries :
    (∃ e, bookToOrderbook snapshotType { base := { timestamp := 9223372036854775 } } = .ok e ∧
        e.timestamp.toInt = 9223372036854775000) ∧
      FailsWith (bookToOrderbook snapshotType { base := { timestamp := 9223372036854776 } }) .rangeExceeded ∧
      FailsWith (bookToOrderbook snapshotType { base := { timestamp := -9223372036854776 } }) .rangeExceeded ∧
      (∃ m, priceToMarket { expiration := some 18446744073709551 } [] = .ok m ∧
        m.expirationTimestampMs.map UInt64.toNat = some 18446744073709551000) ∧
      FailsWith (priceToMarket { expiration := some 18446744073709552 } []) .rangeExceeded := by
  have whole := migration_fails_only_on_unrepresentable false {}
  refine ⟨?_, (whole.2.2.1 _ _).2.1 (by decide) (by unfold MillisFit; decide),
    (whole.2.2.1 _ _).2.1 (by decide) (by unfold MillisFit; decide), ?_,
    (whole.2.1 _ _).1 _ rfl (by unfold UnsignedMillisFit; decide)⟩
  · obtain ⟨e, converted, time⟩ := (whole.2.2.1 snapshotType { base := { timestamp := 9223372036854775 } }).2.2
      (by decide) (by unfold MillisFit; decide)
    exact ⟨e, converted, time.trans (by decide)⟩
  · obtain ⟨m, converted, -, expiration⟩ := (whole.2.1 { expiration := some 18446744073709551 } []).2
      (fun s expires => by cases expires; unfold UnsignedMillisFit; decide)
    exact ⟨m, converted, expiration.trans (by decide)⟩

end Migration

end MarketData
