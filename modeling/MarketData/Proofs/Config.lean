import MarketData.Config
import MarketData.Proofs.Text.UpperCase
import MarketData.Proofs.Enumeration
import MarketData.Proofs.Except

/-!
# Configurations the codecs accept

A configuration is checked once it is read, and the codecs are built later from its settings.
The two sides name their inputs separately: the check lowercases the compression as it stands,
while the parquet codec trims white space first and then lowercases it; the check reads the
default format with the same reader the tools use later.

Every configuration that reads and passes its checks is one the codecs accept
(`Config.codecsAccept_of_parse`): its default format reads, its compression reads, the codecs of
all four formats are built from its settings, the codec of every format is found under them,
and its json indent holds only spaces and tabs. The step that needs an argument is the
compression: lowercasing keeps white space (`toLowerChar_of_isBlank`, checked against the runs of
the lowercase table), so a name that lowercases onto one of the compressions, which hold no white
space, has none to trim, whatever characters it uses (`Compression.parse_of_admitted`).
-/

namespace MarketData

open Utf8

/-! ## Lowercasing keeps white space -/

/-- The code points above ASCII that are white space, as ranges. -/
def blankRanges : List (Nat × Nat) :=
  [(0x85, 0x85), (0xA0, 0xA0), (0x1680, 0x1680), (0x2000, 0x200A), (0x2028, 0x2029), (0x202F, 0x202F),
    (0x205F, 0x205F), (0x3000, 0x3000)]

/-- Whether a run of a case table lies clear of every range of white space. -/
def CaseRun.clearOfBlanks (r : CaseRun) : Bool :=
  blankRanges.all fun range => r.hi < range.1 || range.2 < r.lo

set_option maxRecDepth 4000 in
theorem lowerRuns_clearOfBlanks : lowerRuns.toList.all CaseRun.clearOfBlanks = true := by decide

theorem mem_blankRanges {c : Char} (blank : isBlank c = true) (high : 0x80 ≤ c.toNat) :
    ∃ range ∈ blankRanges, range.1 ≤ c.toNat ∧ c.toNat ≤ range.2 := by
  unfold isBlank at blank
  dsimp only at blank
  simp only [blankRanges, List.mem_cons, List.not_mem_nil, or_false, exists_eq_or_imp, exists_eq_left]
  split at blank <;> simp only [Bool.or_eq_true, beq_iff_eq, Bool.and_eq_true, decide_eq_true_eq] at blank <;>
    omega

/-- Lowercasing leaves white space as it is. -/
theorem toLowerChar_of_isBlank {c : Char} (blank : isBlank c = true) : toLowerChar c = c := by
  by_cases ascii : c.toNat < 0x80
  · -- the ASCII blanks are the controls from tab to carriage return and the space
    apply toLowerChar_of_not_upper ascii
    unfold isBlank at blank
    dsimp only at blank
    rw [if_pos (by omega)] at blank
    simp only [Bool.or_eq_true, beq_iff_eq] at blank
    omega
  · obtain ⟨range, member, low, high⟩ := mem_blankRanges blank (by omega)
    rw [toLowerChar, if_neg ascii]
    apply CaseRun.apply_of_uncovered
    intro r run
    have clear := List.all_eq_true.1 (List.all_eq_true.1 lowerRuns_clearOfBlanks r run) range member
    rw [← Bool.not_eq_true, CaseRun.covers_iff]
    simp only [Bool.or_eq_true, decide_eq_true_eq] at clear
    omega

theorem isBlank_of_toLowerChar {c : Char} (solid : isBlank (toLowerChar c) = false) : isBlank c = false := by
  cases blank : isBlank c with
  | false => rfl
  | true =>
    rw [toLowerChar_of_isBlank blank, blank] at solid
    exact solid

theorem Bytes.ofString_beq_ofString (s t : String) : (Bytes.ofString s == Bytes.ofString t) = (s == t) := by
  rw [Bool.eq_iff_iff, beq_iff_eq, beq_iff_eq]
  exact ⟨Enumeration.ofString_injective, congrArg Bytes.ofString⟩

/-! ## Checks -/

section Checks

variable {ε α : Type}

theorem throw_eq_error (e : ε) : (throw e : Except ε α) = .error e := rfl

theorem ite_error_eq_ok {p : Prop} [Decidable p] {e : ε} {x : Except ε α} {a : α} :
    (if p then .error e else x) = .ok a ↔ ¬p ∧ x = .ok a := by
  split <;> simp_all

end Checks

namespace Config

/-- A configuration passes its checks exactly when it has a name and a version, its default
format reads, its compression lowercases onto a known one, its parallelism is not negative and its
json indent holds only spaces and tabs. -/
theorem check_eq_ok_iff (c : Config) :
    c.check = .ok () ↔
      c.name ≠ "" ∧ c.version ≠ "" ∧ (∃ f, Format.parse (Bytes.ofString c.defaultFormat) = .ok f) ∧
        toStringLossy (Bytes.ofString c.compression).toLower ∈ compressions ∧ 0 ≤ c.parallelism ∧
          ∀ ch ∈ c.indent.toList, ch = ' ' ∨ ch = '\t' := by
  unfold check
  cases Format.parse (Bytes.ofString c.defaultFormat) <;>
    simp only [throw_eq_error, error_bind, ite_error_eq_ok] <;>
    simp [String.isEmpty_iff, String.all_bool_eq, or_iff_not_imp_left]

theorem check_of_parse {text : String} {c : Config} (parsed : parse text = .ok c) : c.check = .ok () := by
  unfold parse at parsed
  split at parsed
  · cases parsed
  · dsimp only at parsed
    split at parsed
    · cases parsed
    · rename_i checked
      cases parsed
      exact checked

theorem format_eq {c : Config} {f : Format} (read : Format.parse (Bytes.ofString c.defaultFormat) = .ok f) :
    c.format = f := by
  rw [format, read]

end Config

/-! ## What the codecs read -/

theorem Format.parse_name (f : Format) : Format.parse (Bytes.ofString f.name) = .ok f := by
  have solid : ∀ c ∈ f.name.toList, isBlank c = false := by
    cases f <;> simp [Format.name, isBlank]
  have lower : ∀ c ∈ f.name.toList, c.toNat < 0x80 ∧ (c.toNat < 65 ∨ 90 < c.toNat) := by
    cases f <;> simp [Format.name]
  unfold Format.parse
  rw [Bytes.ofString_eq_encode, Json.trimBlank_encode solid, toLower_encode_of lower, ← Bytes.ofString_eq_encode]
  cases f <;> simp [Bytes.ofString_beq_ofString, Format.name]

namespace Compression

theorem compressions_solid : ∀ n ∈ Config.compressions, ∀ d ∈ n.toList, isBlank d = false := by
  intro n known
  simp only [Config.compressions, List.mem_cons, List.not_mem_nil, or_false] at known
  rcases known with rfl | rfl | rfl | rfl | rfl <;> simp [isBlank]

/-- A name that trims and lowercases onto one of the compressions a configuration may name reads
as a compression. -/
theorem parse_of_key {b : Bytes} {n : String} (key : b.trimBlank.toLower = Bytes.ofString n)
    (known : n ∈ Config.compressions) : ∃ c, Compression.parse b = .ok c := by
  unfold Compression.parse
  simp only [key, Bytes.ofString_beq_ofString]
  simp only [Config.compressions, List.mem_cons, List.not_mem_nil, or_false] at known
  rcases known with rfl | rfl | rfl | rfl | rfl <;> simp [Bytes.ofString_eq_encode, encode_eq_nil_iff]

/-- A compression the configuration check admits is one the parquet codec reads. The check
lowercases the name without trimming it; a name that lowercases onto a compression has no white
space, since lowercasing keeps white space, so trimming leaves it as it is. -/
theorem parse_of_admitted {s : String}
    (admitted : toStringLossy (Bytes.ofString s).toLower ∈ Config.compressions) :
    ∃ c, Compression.parse (Bytes.ofString s) = .ok c := by
  have lowered : (Bytes.ofString s).toLower = encode (s.toList.map toLowerChar) := by
    rw [Bytes.ofString_eq_encode, Bytes.toLower, runes_encode]
  rw [lowered, toStringLossy, runes_encode] at admitted
  have solid : ∀ c ∈ s.toList, isBlank c = false := fun c member =>
    isBlank_of_toLowerChar (compressions_solid _ admitted _ (by
      rw [String.toList_ofList]
      exact List.mem_map_of_mem member))
  refine parse_of_key ?_ admitted
  rw [Bytes.ofString_eq_encode, Json.trimBlank_encode solid, Bytes.toLower, runes_encode,
    Bytes.ofString_ofList]

end Compression

namespace Codec

/-- Under settings whose compression reads, the codecs of all four formats are built, in the
order the formats are listed. -/
theorem all_eq_ok {s : Settings} {c : Compression} (read : Compression.parse s.compression = .ok c) :
    Codec.all s = .ok [.protobuf, .borsh, .parquet c, .json s.indent] := by
  rw [Codec.all, read]
  rfl

theorem ofFormat_eq_ok {s : Settings} {c : Compression} (read : Compression.parse s.compression = .ok c)
    (f : Format) : ∃ codec, Codec.ofFormat f s = .ok codec ∧ codec.format = f := by
  unfold ofFormat lookup
  rw [all_eq_ok read]
  cases f <;> simp [Bytes.ofString_beq_ofString, format, Format.name]

end Codec

/-! ## Configurations the codecs accept -/

namespace Config

/-- What building the codecs needs of a configuration. -/
structure CodecsAccept (c : Config) : Prop where
  /-- The default format reads, as the format the configuration names. -/
  format : ∃ f, Format.parse (Bytes.ofString c.defaultFormat) = .ok f ∧ c.format = f
  /-- The compression reads, and the codecs of all four formats are built with it. -/
  codecs : ∃ comp, Compression.parse (Bytes.ofString c.compression) = .ok comp ∧
    Codec.all c.settings = .ok [.protobuf, .borsh, .parquet comp, .json c.indent]
  /-- The codec of every listed format is found, the default format's among them. -/
  lookup : ∀ f ∈ Format.all, ∃ codec, Codec.ofFormat f c.settings = .ok codec ∧ codec.format = f
  /-- The json indent holds only spaces and tabs. -/
  indent : ∀ ch ∈ c.indent.toList, ch = ' ' ∨ ch = '\t'

/-- Every configuration that reads from YAML text and passes its checks is one the codecs accept. -/
theorem codecsAccept_of_parse {text : String} {cfg : Config} (parsed : parse text = .ok cfg) :
    cfg.CodecsAccept := by
  obtain ⟨-, -, ⟨f, formatRead⟩, admitted, -, indent⟩ := (check_eq_ok_iff cfg).1 (check_of_parse parsed)
  obtain ⟨comp, compressionRead⟩ := Compression.parse_of_admitted admitted
  have settingsRead : Compression.parse cfg.settings.compression = .ok comp := compressionRead
  exact ⟨⟨f, formatRead, format_eq formatRead⟩, ⟨comp, compressionRead, Codec.all_eq_ok settingsRead⟩,
    fun f _ => Codec.ofFormat_eq_ok settingsRead f, indent⟩

/-- The fields of a configuration its checks look at. -/
def checkedFields (c : Config) : String × String × String × String × Int × String :=
  (c.name, c.version, c.defaultFormat, c.compression, c.parallelism, c.indent)

set_option synthInstance.maxSize 1024 in
theorem codecsAccept_of_parse_gzip :
    ∃ cfg, parse "\"codecs\":\n  \"parquet\":\n    \"compression\": \"GZIP\"\n" = .ok cfg ∧
      cfg.compression = "GZIP" ∧ cfg.CodecsAccept := by
  have decoded : ((Yaml.decodeFirst decoder "\"codecs\":\n  \"parquet\":\n    \"compression\": \"GZIP\"\n"
      defaults).toOption.map (Option.map checkedFields)) =
        some (some ("marketmodel", "1.0", "protobuf", "GZIP", 4, "")) := by
    decide +kernel
  obtain ⟨cfg, read, fields⟩ : ∃ cfg, Yaml.decodeFirst decoder
      "\"codecs\":\n  \"parquet\":\n    \"compression\": \"GZIP\"\n" defaults = .ok (some cfg) ∧
      checkedFields cfg = ("marketmodel", "1.0", "protobuf", "GZIP", 4, "") := by
    revert decoded
    cases Yaml.decodeFirst decoder "\"codecs\":\n  \"parquet\":\n    \"compression\": \"GZIP\"\n" defaults with
    | error e => exact fun decoded => by cases decoded
    | ok r =>
      cases r with
      | none => exact fun decoded => by cases decoded
      | some cfg => exact fun decoded => ⟨cfg, rfl, by simpa [Except.toOption] using decoded⟩
  simp only [checkedFields, Prod.mk.injEq] at fields
  obtain ⟨name, version, defaultFormat, compression, parallelism, indent⟩ := fields
  have lowered : ("GZIP".toList.map toLowerChar) = "gzip".toList := by
    simp only [String.reduceToList]
    decide
  have admitted : toStringLossy (Bytes.ofString cfg.compression).toLower ∈ compressions := by
    rw [compression, Bytes.ofString_eq_encode, Bytes.toLower, runes_encode, toStringLossy, runes_encode, lowered,
      String.ofList_toList]
    simp [compressions]
  have checked : cfg.check = .ok () := by
    rw [check_eq_ok_iff, name, version, defaultFormat, parallelism, indent]
    exact ⟨by decide, by decide, ⟨.protobuf, Format.parse_name .protobuf⟩, admitted, by decide, by simp⟩
  have parsed : parse "\"codecs\":\n  \"parquet\":\n    \"compression\": \"GZIP\"\n" = .ok cfg := by
    rw [parse, read]
    simp only [Option.getD_some, checked]
  exact ⟨cfg, parsed, compression, codecsAccept_of_parse parsed⟩

end Config

end MarketData
