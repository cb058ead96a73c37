import WorkQueue.Proofs.Text.Trim
import WorkQueue.Settings

/-! # Which settings are accepted

Each setting is settled by one variable, which may be unset, blank or padded with blanks. The
settings are accepted exactly if every variable settles its own, and otherwise the first that
does not, in the order in which they are read, is named.
-/
namespace WorkQueue

namespace Text

/-- A literal that is read is within its limit. -/
theorem natural_le {limit n : Nat} {text : String} (h : natural limit text = .ok n) :
    n ≤ limit := by
  unfold natural at h
  split at h
  · cases h
  · cases h
  · exact naturalFrom_le (Nat.zero_le _) h
  · exact naturalFrom_le (Nat.zero_le _) h

end Text

namespace Settings
variable {lookup : Lookup} {key raw : String} {value : Option String}

/-! ## Variables -/

/-- A variable is unset where nothing is found, or blanks alone. -/
def Unset (value : Option String) : Prop := ∀ raw ∈ value, ∀ c ∈ raw.toList, Text.isBlank c = true

/-- A value with blanks put before and after its text. -/
inductive Padded : Option String → Option String → Prop
  | around {before after : String} (raw : String)
      (hbefore : ∀ c ∈ before.toList, Text.isBlank c = true)
      (hafter : ∀ c ∈ after.toList, Text.isBlank c = true) :
      Padded (some raw) (some (before ++ raw ++ after))

theorem unset_none : Unset none := nofun

theorem unset_some : Unset (some raw) ↔ Text.allBlank raw = true := by
  simp [Unset, Text.allBlank]

theorem exists_of_set (h : ¬ Unset value) : ∃ raw, value = some raw := by
  cases value with
  | none => exact absurd unset_none h
  | some raw => exact ⟨raw, rfl⟩

theorem Padded.unset_iff {value' : Option String} (h : Padded value value') :
    Unset value' ↔ Unset value := by
  obtain ⟨raw, hbefore, hafter⟩ := h
  simp only [unset_some, Text.allBlank, String.toList_append, List.all_append,
    List.all_eq_true.mpr hbefore, List.all_eq_true.mpr hafter, Bool.true_and, Bool.and_true]

theorem optional_of_unset (h : Unset (lookup key)) : optional lookup key = none := by
  unfold optional
  cases found : lookup key with
  | none => rfl
  | some raw => simp [unset_some.mp (found ▸ h)]

theorem optional_of_set (found : lookup key = some raw) (h : ¬ Unset (some raw)) :
    optional lookup key = some raw := by
  simpa [optional, found] using mt unset_some.mpr h

/-- Two lookups that tell apart only blank values and unset variables are the same to settings. -/
theorem optional_congr {lookup' : Lookup}
    (same : lookup' key = lookup key ∨ Unset (lookup key) ∧ Unset (lookup' key)) :
    optional lookup' key = optional lookup key := by
  rcases same with same | ⟨unset, unset'⟩
  · rw [optional, optional, same]
  · rw [optional_of_unset unset, optional_of_unset unset']

section Parsed
variable {α : Type} {parse : String → Except Text.LiteralFault α} {fallback x : α}
  {reason : Text.LiteralFault}

theorem parsed_of_unset (h : Unset (lookup key)) :
    parsed lookup key parse fallback = .ok fallback := by
  rw [parsed, optional_of_unset h]

theorem parsed_of_ok (found : lookup key = some raw) (h : ¬ Unset (some raw))
    (hx : parse (Text.trim raw) = .ok x) : parsed lookup key parse fallback = .ok x := by
  simp only [parsed, optional_of_set found h, hx]

theorem parsed_of_error (found : lookup key = some raw) (h : ¬ Unset (some raw))
    (hx : parse (Text.trim raw) = .error reason) :
    parsed lookup key parse fallback = .error (.config (.invalid key raw reason)) := by
  simp only [parsed, optional_of_set found h, hx]

end Parsed

/-! ## Fields -/

inductive Field
  | databaseUrl
  | queueName
  | replicaName
  | pollInterval
  | invisibility
  | maxAttempts
  | workOnStartup
  | controlAddress
  | stopCheckInterval
  | otelEndpoint
  | logLevel
  deriving DecidableEq

namespace Field

/-- The variable that settles a field. -/
def name : Field → String
  | databaseUrl => "DATABASE_URL"
  | queueName => "WORK_ITEM_QUEUE_NAME"
  | replicaName => "CONTAINER_APP_REPLICA_NAME"
  | pollInterval => "QUEUE_POLL_INTERVAL_SECS"
  | invisibility => "QUEUE_MESSAGE_INVISIBILITY_SECS"
  | maxAttempts => "MAX_WORK_ITEM_ATTEMPTS"
  | workOnStartup => "WORK_ON_STARTUP"
  | controlAddress => "CONTROL_LISTEN_ADDR"
  | stopCheckInterval => "STOP_CHECK_INTERVAL_SECS"
  | otelEndpoint => "OTEL_ENDPOINT"
  | logLevel => "LOG_LEVEL"

def Value : Field → Type
  | databaseUrl | otelEndpoint => Option String
  | queueName | replicaName | logLevel => String
  | pollInterval | invisibility | stopCheckInterval => Duration
  | maxAttempts => Nat
  | workOnStartup => Bool
  | controlAddress => Net.SocketAddress

def get (s : Settings) : (f : Field) → f.Value
  | databaseUrl => s.databaseUrl
  | queueName => s.queueName
  | replicaName => s.replicaName
  | pollInterval => s.pollInterval
  | invisibility => s.invisibility
  | maxAttempts => s.maxAttempts
  | workOnStartup => s.workOnStartup
  | controlAddress => s.controlAddress
  | stopCheckInterval => s.stopCheckInterval
  | otelEndpoint => s.otelEndpoint
  | logLevel => s.logLevel

/-- No nanoseconds are fewer than a second has. -/
theorem zero_lt_second : 0 < 1000000000 := by decide

/-- What a field is where its variable is unset. The queue has no name of its own. -/
def fallback : (f : Field) → Option f.Value
  | databaseUrl | otelEndpoint => some (none : Option String)
  | queueName => none
  | replicaName => some "localReplica"
  | pollInterval => some (⟨10, 0, zero_lt_second⟩ : Duration)
  | invisibility => some (⟨60, 0, zero_lt_second⟩ : Duration)
  | maxAttempts => some (3 : Nat)
  | workOnStartup => some false
  | controlAddress => some (Net.SocketAddress.v4 [0, 0, 0, 0] 8080)
  | stopCheckInterval => some (⟨5, 0, zero_lt_second⟩ : Duration)
  | logLevel => some "info"

/-- Whether the variable of a field is parsed, and not taken as it stands. -/
def isParsed : Field → Bool
  | databaseUrl | queueName | replicaName | otelEndpoint | logLevel => false
  | pollInterval | invisibility | maxAttempts | workOnStartup | controlAddress
  | stopCheckInterval => true

/-- What a text stands for. A span is told as a whole number of seconds. -/
def denote (text : String) : (f : Field) → Except Text.LiteralFault f.Value
  | databaseUrl | otelEndpoint => .ok (some text)
  | queueName | replicaName | logLevel => .ok text
  | pollInterval | invisibility | stopCheckInterval =>
      (Text.natural Text.limit64 text).map fun n => ⟨UInt64.ofNat n, 0, zero_lt_second⟩
  | maxAttempts => Text.natural Text.limit32 text
  | workOnStartup => Text.boolean text
  | controlAddress => Net.SocketAddress.parse text

/-- Which text is read of a variable: what trimming leaves of it where it is parsed, and all of it
otherwise. -/
def Takes (f : Field) (raw text : String) : Prop :=
  if f.isParsed then Text.Trims raw text else text = raw

/-- What a field may be: there is at least one attempt. -/
def Allows : (f : Field) → f.Value → Prop
  | maxAttempts, (n : Nat) => 1 ≤ n
  | _, _ => True

/-- What the value of its variable makes of a field. -/
inductive Settles (f : Field) : Option String → f.Value → Prop
  | unset {value : Option String} {x : f.Value} (h : Unset value) (hx : f.fallback = some x) :
      f.Settles value x
  | set {raw text : String} {x : f.Value} (h : ¬ Unset (some raw)) (taken : f.Takes raw text)
      (hx : f.denote text = .ok x) (allowed : f.Allows x) : f.Settles (some raw) x

/-- A value that is unset, or parses once it is trimmed. -/
def Parses {α : Type} (parse : String → Except Text.LiteralFault α) (value : Option String) :
    Prop :=
  Unset value ∨ ∃ raw text x, value = some raw ∧ Text.Trims raw text ∧ parse text = .ok x

/-- What the value of a variable has to be like for settings to be accepted. -/
def Acceptable : Field → Option String → Prop
  | queueName, value => ¬ Unset value
  | maxAttempts, value => Unset value ∨ ∃ raw text n, value = some raw ∧ Text.Trims raw text ∧
      Text.natural Text.limit32 text = .ok n ∧ 1 ≤ n
  | pollInterval, value | invisibility, value | stopCheckInterval, value =>
      Parses (Text.natural Text.limit64) value
  | workOnStartup, value => Parses Text.boolean value
  | controlAddress, value => Parses Net.SocketAddress.parse value
  | databaseUrl, _ | replicaName, _ | otelEndpoint, _ | logLevel, _ => True

/-- What is said of a variable that settles nothing. -/
inductive Blames (f : Field) : Option String → SettingFault → Prop
  | notSet {value : Option String} (h : Unset value) (hx : f.fallback = none) :
      f.Blames value (.notSet f.name)
  | noAttempts {raw text : String} {x : f.Value} (h : ¬ Unset (some raw))
      (taken : f.Takes raw text) (hx : f.denote text = .ok x) (refused : ¬ f.Allows x) :
      f.Blames (some raw) (.noAttempts f.name)
  | invalid {raw text : String} {reason : Text.LiteralFault} (h : ¬ Unset (some raw))
      (taken : f.Takes raw text) (hx : f.denote text = .error reason) :
      f.Blames (some raw) (.invalid f.name raw reason)

variable {f : Field}

/-- What the text of a variable is read as. -/
def parse (f : Field) (raw : String) : Except Text.LiteralFault f.Value :=
  f.denote (if f.isParsed then Text.trim raw else raw)

theorem takes_iff {text : String} :
    f.Takes raw text ↔ (if f.isParsed then Text.trim raw else raw) = text := by
  unfold Takes
  split
  · exact Text.trims_iff
  · exact eq_comm

theorem denote_of_takes {text : String} (taken : f.Takes raw text) :
    f.denote text = f.parse raw := by
  rw [parse, takes_iff.mp taken]

theorem settles_of_parse {x : f.Value} (h : ¬ Unset (some raw)) (hx : f.parse raw = .ok x)
    (allowed : f.Allows x) : f.Settles (some raw) x :=
  .set h (takes_iff.mpr rfl) hx allowed

theorem blames_of_parse_error {reason : Text.LiteralFault} (h : ¬ Unset (some raw))
    (hx : f.parse raw = .error reason) : f.Blames (some raw) (.invalid f.name raw reason) :=
  .invalid h (takes_iff.mpr rfl) hx

theorem Settles.functional {x y : f.Value} (hx : f.Settles value x) (hy : f.Settles value y) :
    x = y := by
  cases hx with
  | unset unset hx =>
    cases hy with
    | unset _ hy => exact Option.some.inj (hx.symm.trans hy)
    | set given => exact absurd unset given
  | set given taken hx =>
    cases hy with
    | unset unset => exact absurd unset given
    | set _ taken' hy =>
      rw [denote_of_takes taken] at hx
      rw [denote_of_takes taken'] at hy
      exact Except.ok.inj (hx.symm.trans hy)

theorem settles_of_unset_iff {x : f.Value} (h : Unset value) :
    f.Settles value x ↔ f.fallback = some x := by
  refine ⟨fun settled => ?_, .unset h⟩
  cases settled with
  | unset _ hx => exact hx
  | set given => exact absurd h given

theorem settles_of_set_iff {x : f.Value} (h : ¬ Unset (some raw)) :
    f.Settles (some raw) x ↔ f.parse raw = .ok x ∧ f.Allows x := by
  refine ⟨fun settled => ?_, fun ⟨hx, allowed⟩ => settles_of_parse h hx allowed⟩
  cases settled with
  | unset unset => exact absurd unset h
  | set _ taken hx allowed => exact ⟨denote_of_takes taken ▸ hx, allowed⟩

theorem parse_padded {before after : String} (parsed : f.isParsed = true)
    (hbefore : ∀ c ∈ before.toList, Text.isBlank c = true)
    (hafter : ∀ c ∈ after.toList, Text.isBlank c = true) (raw : String) :
    f.parse (before ++ raw ++ after) = f.parse raw := by
  rw [parse, parse, if_pos parsed, if_pos parsed, Text.trim_padded hbefore hafter]

theorem settles_padded {value' : Option String} {x : f.Value} (parsed : f.isParsed = true)
    (h : Padded value value') : f.Settles value' x ↔ f.Settles value x := by
  by_cases unset : Unset value
  · rw [settles_of_unset_iff unset, settles_of_unset_iff (h.unset_iff.mpr unset)]
  · have unset' := mt h.unset_iff.mp unset
    obtain ⟨raw, hbefore, hafter⟩ := h
    rw [settles_of_set_iff unset, settles_of_set_iff unset', parse_padded parsed hbefore hafter]

theorem exists_settles_iff (other : f.fallback ≠ none) :
    (∃ x, f.Settles value x) ↔
      Unset value ∨ ∃ raw x, value = some raw ∧ f.parse raw = .ok x ∧ f.Allows x := by
  constructor
  · rintro ⟨x, settled⟩
    cases settled with
    | unset unset => exact .inl unset
    | set _ taken hx allowed => exact .inr ⟨_, x, rfl, denote_of_takes taken ▸ hx, allowed⟩
  · intro h
    by_cases unset : Unset value
    · obtain ⟨x, hx⟩ := Option.ne_none_iff_exists'.mp other
      exact ⟨x, .unset unset hx⟩
    · obtain ⟨raw, x, rfl, hx, allowed⟩ := h.resolve_left unset
      exact ⟨x, settles_of_parse unset hx allowed⟩

theorem exists_map_eq_ok_iff {α β : Type} {g : α → β} {x : Except Text.LiteralFault α} :
    (∃ y, x.map g = .ok y) ↔ ∃ y, x = .ok y := by
  cases x <;> simp [Except.map]

theorem exists_settles_iff_parses {α : Type} (parse : String → Except Text.LiteralFault α)
    (other : f.fallback ≠ none) (allowed : ∀ x, f.Allows x)
    (same : ∀ raw, (∃ x, f.parse raw = .ok x) ↔ ∃ x, parse (Text.trim raw) = .ok x) :
    (∃ x, f.Settles value x) ↔ Parses parse value := by
  rw [exists_settles_iff other]
  refine or_congr_right (exists_congr fun raw => ?_)
  simp [allowed, exists_and_left, same raw, Text.trims_iff]

theorem exists_settles_iff_true (other : f.fallback ≠ none) (allowed : ∀ x, f.Allows x)
    (taken : ∀ raw, ∃ x, f.parse raw = .ok x) : (∃ x, f.Settles value x) ↔ True := by
  rw [exists_settles_iff other, iff_true]
  cases value with
  | none => exact .inl unset_none
  | some raw =>
    obtain ⟨x, hx⟩ := taken raw
    exact .inr ⟨raw, x, rfl, hx, allowed x⟩

/-- A variable settles its field exactly if it is acceptable. -/
theorem exists_settles_iff_acceptable : (∃ x, f.Settles value x) ↔ f.Acceptable value := by
  cases f with
  | databaseUrl | otelEndpoint =>
    exact exists_settles_iff_true nofun (fun _ => trivial) fun raw => ⟨some raw, rfl⟩
  | replicaName | logLevel =>
    exact exists_settles_iff_true nofun (fun _ => trivial) fun raw => ⟨raw, rfl⟩
  | queueName =>
    constructor
    · rintro ⟨x, settled⟩ unset
      cases (settles_of_unset_iff unset).mp settled
    · intro given
      obtain ⟨raw, rfl⟩ := exists_of_set given
      exact ⟨raw, settles_of_parse given rfl trivial⟩
  | pollInterval | invisibility | stopCheckInterval =>
    exact exists_settles_iff_parses (Text.natural Text.limit64) nofun (fun _ => trivial) fun _ =>
      exists_map_eq_ok_iff
  | maxAttempts =>
    have other : maxAttempts.fallback ≠ none := nofun
    refine (exists_settles_iff other).trans (or_congr_right (exists_congr fun raw => ?_))
    simp only [Text.trims_iff, exists_and_left, exists_eq_left']
    exact Iff.rfl
  | workOnStartup =>
    exact exists_settles_iff_parses Text.boolean nofun (fun _ => trivial) fun _ => Iff.rfl
  | controlAddress =>
    exact exists_settles_iff_parses Net.SocketAddress.parse nofun (fun _ => trivial) fun _ =>
      Iff.rfl

theorem Blames.not_settles {fault : SettingFault} {x : f.Value} (h : f.Blames value fault) :
    ¬ f.Settles value x := by
  cases h with
  | notSet unset none =>
    rw [settles_of_unset_iff unset, none]
    exact nofun
  | noAttempts given taken hx refused =>
    rw [settles_of_set_iff given, ← denote_of_takes taken, hx]
    rintro ⟨⟨⟩, allowed⟩
    exact refused allowed
  | invalid given taken hx =>
    rw [settles_of_set_iff given, ← denote_of_takes taken, hx]
    exact fun h => nomatch h.1

/-- The message of a fault holds the name of the variable. -/
theorem Blames.named {fault : SettingFault} (h : f.Blames value fault) :
    ∃ left right, fault.message = left ++ f.name ++ right := by
  unfold SettingFault.message
  cases h with
  | notSet => exact ⟨"required environment variable ", " is not set", by dsimp only [toString]⟩
  | noAttempts =>
    refine ⟨"", " must be at least 1", ?_⟩
    dsimp only [toString]
    rw [String.empty_append]
  | @invalid raw text reason =>
    refine ⟨"invalid value for ", " (" ++ Text.quoted raw ++ "): " ++ reason.message, ?_⟩
    dsimp only [toString]
    simp only [String.append_assoc]

/-! ## Reading a field -/

/-- What comes of reading a field: the value that is settled, or a fault that is found. -/
structure ReadsAs (f : Field) (value : Option String) (read : Except Failure f.Value) : Prop where
  ok_iff : ∀ x, read = .ok x ↔ f.Settles value x
  error : ∀ failure, read = .error failure → ∃ fault, failure = .config fault ∧ f.Blames value fault

theorem Settles.readsAs {x : f.Value} (h : f.Settles value x) : f.ReadsAs value (.ok x) where
  ok_iff y := by
    constructor
    · intro same
      cases same
      exact h
    · intro h'
      rw [h.functional h']
  error _ same := by cases same

theorem Blames.readsAs {fault : SettingFault} (h : f.Blames value fault) :
    f.ReadsAs value (.error (.config fault)) where
  ok_iff _ := iff_of_false nofun h.not_settles
  error _ same := ⟨fault, (Except.error.inj same).symm, h⟩

theorem readsAs_parsed {fallback : f.Value} (parse : String → Except Text.LiteralFault f.Value)
    (hparse : ∀ raw, f.parse raw = parse (Text.trim raw)) (allowed : ∀ x, f.Allows x)
    (hfallback : f.fallback = some fallback) (lookup : Lookup) :
    f.ReadsAs (lookup f.name) (parsed lookup f.name parse fallback) := by
  by_cases unset : Unset (lookup f.name)
  · rw [parsed_of_unset unset]
    exact (Settles.unset unset hfallback).readsAs
  · obtain ⟨raw, found⟩ := exists_of_set unset
    rw [found] at unset ⊢
    cases hx : parse (Text.trim raw) with
    | ok x =>
      rw [parsed_of_ok found unset hx]
      exact (settles_of_parse unset ((hparse raw).trans hx) (allowed x)).readsAs
    | error reason =>
      rw [parsed_of_error found unset hx]
      exact (blames_of_parse_error unset ((hparse raw).trans hx)).readsAs

theorem readsAs_required (lookup : Lookup) :
    queueName.ReadsAs (lookup queueName.name) (required lookup queueName.name) := by
  by_cases unset : Unset (lookup queueName.name)
  · rw [required, optional_of_unset unset]
    exact (Blames.notSet unset rfl).readsAs
  · obtain ⟨raw, found⟩ := exists_of_set unset
    rw [found] at unset ⊢
    rw [required, optional_of_set found unset]
    exact (settles_of_parse (f := queueName) unset rfl trivial).readsAs

theorem readsAs_attempts (lookup : Lookup) :
    maxAttempts.ReadsAs (lookup "MAX_WORK_ITEM_ATTEMPTS") (attempts lookup) := by
  by_cases unset : Unset (lookup "MAX_WORK_ITEM_ATTEMPTS")
  · have read : attempts lookup = .ok 3 := by
      simp only [attempts, parsed_of_unset unset]
    rw [read]
    exact (Settles.unset unset rfl).readsAs
  · obtain ⟨raw, found⟩ := exists_of_set unset
    rw [found] at unset ⊢
    cases hx : Text.natural Text.limit32 (Text.trim raw) with
    | error reason =>
      have read : attempts lookup = .error (.config (.invalid maxAttempts.name raw reason)) := by
        simp only [attempts, parsed_of_error found unset hx, name]
      rw [read]
      exact (blames_of_parse_error (f := maxAttempts) unset hx).readsAs
    | ok n =>
      cases n with
      | zero =>
        have read : attempts lookup = .error (.config (.noAttempts maxAttempts.name)) := by
          simp only [attempts, parsed_of_ok found unset hx, name]
        rw [read]
        have taken : maxAttempts.Takes raw (Text.trim raw) := takes_iff.mpr rfl
        exact (Blames.noAttempts unset taken hx (Nat.not_lt_zero 0)).readsAs
      | succ n =>
        have read : attempts lookup = .ok (n + 1) := by
          simp only [attempts, parsed_of_ok found unset hx]
        rw [read]
        exact (settles_of_parse (f := maxAttempts) unset hx (Nat.succ_pos n)).readsAs

/-- A field that is taken from its variable as it stands, or from nothing. -/
theorem settles_optional (take : Option String → f.Value)
    (hfallback : f.fallback = some (take none))
    (hparse : ∀ raw, f.parse raw = .ok (take (some raw))) (allowed : ∀ x, f.Allows x)
    (lookup : Lookup) : f.Settles (lookup f.name) (take (optional lookup f.name)) := by
  by_cases unset : Unset (lookup f.name)
  · rw [optional_of_unset unset]
    exact .unset unset hfallback
  · obtain ⟨raw, found⟩ := exists_of_set unset
    rw [found] at unset
    rw [optional_of_set found unset, found]
    exact settles_of_parse unset (hparse raw) (allowed _)

end Field

/-! ## Reading all fields -/

open WorkQueue.Settings.Field

/-- The fields that can be refused, in the order in which they are read. -/
def examined : List Field :=
  [.maxAttempts, .queueName, .pollInterval, .invisibility, .workOnStartup, .controlAddress,
    .stopCheckInterval]

/-- A failure that tells what is wrong with the first field that is not acceptable. -/
def FirstRefused (lookup : Lookup) (fields : List Field) (failure : Failure) : Prop :=
  ∃ before f after, fields = before ++ f :: after ∧
    (∀ g ∈ before, g.Acceptable (lookup g.name)) ∧ ¬ f.Acceptable (lookup f.name) ∧
    ∃ fault, failure = .config fault ∧ f.Blames (lookup f.name) fault ∧
      ∃ left right, fault.message = left ++ f.name ++ right

/-- Fields read in turn. Either all of them are acceptable and make what is told, or the first
that is not is blamed. -/
structure Examines {α : Type} (lookup : Lookup) (fields : List Field) (read : Except Failure α)
    (Made : α → Prop) : Prop where
  accepted : ∀ x, read = .ok x → (∀ f ∈ fields, f.Acceptable (lookup f.name)) ∧ Made x
  refused : ∀ failure, read = .error failure → FirstRefused lookup fields failure

theorem Examines.pure {α : Type} {Made : α → Prop} {x : α} (made : Made x) :
    Examines lookup [] (.ok x) Made where
  accepted _ same := by
    cases same
    exact ⟨List.forall_mem_nil _, made⟩
  refused _ same := by cases same

theorem Field.ReadsAs.then {f : Field} {α : Type} {read : Except Failure f.Value}
    {rest : f.Value → Except Failure α} {fields : List Field} {Made : α → Prop}
    (h : f.ReadsAs (lookup f.name) read)
    (later : ∀ x, f.Settles (lookup f.name) x → Examines lookup fields (rest x) Made) :
    Examines lookup (f :: fields) (read >>= rest) Made := by
  cases read with
  | error failure =>
    refine ⟨nofun, fun failure' same => ?_⟩
    cases same
    obtain ⟨fault, rfl, blames⟩ := h.error failure rfl
    refine ⟨[], f, fields, rfl, nofun, fun acceptable => ?_, fault, rfl, blames, blames.named⟩
    obtain ⟨x, settled⟩ := exists_settles_iff_acceptable.mpr acceptable
    exact blames.not_settles settled
  | ok x =>
    have settled := (h.ok_iff x).mp rfl
    have acceptable := exists_settles_iff_acceptable.mp ⟨x, settled⟩
    refine ⟨fun y same => ?_, fun failure same => ?_⟩
    · obtain ⟨good, made⟩ := (later x settled).accepted y same
      exact ⟨List.forall_mem_cons.mpr ⟨acceptable, good⟩, made⟩
    · obtain ⟨before, g, after, rfl, good, bad⟩ := (later x settled).refused failure same
      exact ⟨f :: before, g, after, rfl, List.forall_mem_cons.mpr ⟨acceptable, good⟩, bad⟩

theorem examines_ofLookup (lookup : Lookup) :
    Examines lookup examined (ofLookup lookup) fun s =>
      ∀ f : Field, f.Settles (lookup f.name) (f.get s) := by
  refine (readsAs_attempts lookup).then fun _ hAttempts => ?_
  refine (readsAs_required lookup).then fun _ hQueue => ?_
  refine (readsAs_parsed (f := .pollInterval) secondsLiteral (fun _ => rfl) (fun _ => trivial) rfl
    lookup).then fun _ hPoll => ?_
  refine (readsAs_parsed (f := .invisibility) secondsLiteral (fun _ => rfl) (fun _ => trivial) rfl
    lookup).then fun _ hInvisibility => ?_
  refine (readsAs_parsed (f := .workOnStartup) Text.boolean (fun _ => rfl) (fun _ => trivial) rfl
    lookup).then fun _ hStartup => ?_
  refine (readsAs_parsed (f := .controlAddress) Net.SocketAddress.parse (fun _ => rfl)
    (fun _ => trivial) rfl lookup).then fun _ hAddress => ?_
  refine (readsAs_parsed (f := .stopCheckInterval) secondsLiteral (fun _ => rfl) (fun _ => trivial)
    rfl lookup).then fun _ hStop => .pure fun f => ?_
  cases f with
  | databaseUrl =>
    exact settles_optional (f := .databaseUrl) id rfl (fun _ => rfl) (fun _ => trivial) lookup
  | queueName => exact hQueue
  | replicaName =>
    exact settles_optional (f := .replicaName) (·.getD "localReplica") rfl (fun _ => rfl)
      (fun _ => trivial) lookup
  | pollInterval => exact hPoll
  | invisibility => exact hInvisibility
  | maxAttempts => exact hAttempts
  | workOnStartup => exact hStartup
  | controlAddress => exact hAddress
  | stopCheckInterval => exact hStop
  | otelEndpoint =>
    exact settles_optional (f := .otelEndpoint) id rfl (fun _ => rfl) (fun _ => trivial) lookup
  | logLevel =>
    exact settles_optional (f := .logLevel) (·.getD "info") rfl (fun _ => rfl) (fun _ => trivial)
      lookup

theorem eq_of_get {s s' : Settings} (same : ∀ f : Field, f.get s = f.get s') : s = s' := by
  cases s
  cases s'
  congr
  exacts [same .databaseUrl, same .queueName, same .replicaName, same .pollInterval,
    same .invisibility, same .maxAttempts, same .workOnStartup, same .controlAddress,
    same .stopCheckInterval, same .otelEndpoint, same .logLevel]

/-- Settings are read exactly if every field is what its own variable settles. -/
theorem ofLookup_eq_ok_iff {s : Settings} :
    ofLookup lookup = .ok s ↔ ∀ f : Field, f.Settles (lookup f.name) (f.get s) := by
  have examines := examines_ofLookup lookup
  refine ⟨fun read => (examines.accepted s read).2, fun settled => ?_⟩
  cases read : ofLookup lookup with
  | ok s' =>
    have same : s' = s :=
      eq_of_get fun f => ((examines.accepted s' read).2 f).functional (settled f)
    rw [same]
  | error failure =>
    obtain ⟨before, f, after, -, -, bad, -⟩ := examines.refused failure read
    exact absurd (exists_settles_iff_acceptable.mp ⟨_, settled f⟩) bad

theorem exists_ofLookup_iff :
    (∃ s, ofLookup lookup = .ok s) ↔ ∀ f : Field, f.Acceptable (lookup f.name) := by
  constructor
  · rintro ⟨s, read⟩ f
    exact exists_settles_iff_acceptable.mp ⟨_, ofLookup_eq_ok_iff.mp read f⟩
  · intro acceptable
    cases read : ofLookup lookup with
    | ok s => exact ⟨s, rfl⟩
    | error failure =>
      obtain ⟨before, f, after, -, -, bad, -⟩ := (examines_ofLookup lookup).refused failure read
      exact absurd (acceptable f) bad

/-- Blanks around the values that are parsed are not seen. -/
theorem ofLookup_of_padded {lookup' : Lookup} {s : Settings} (read : ofLookup lookup = .ok s)
    (padded : ∀ f : Field, lookup' f.name = lookup f.name ∨
      f.isParsed = true ∧ Padded (lookup f.name) (lookup' f.name)) : ofLookup lookup' = .ok s := by
  refine ofLookup_eq_ok_iff.mpr fun f => ?_
  have settled := ofLookup_eq_ok_iff.mp read f
  rcases padded f with same | ⟨parsed, padding⟩
  · exact same ▸ settled
  · exact (settles_padded parsed padding).mpr settled

/-- A blank value is as good as none. -/
theorem ofLookup_of_blank {lookup' : Lookup} (blank : ∀ key,
    lookup' key = lookup key ∨ Unset (lookup key) ∧ lookup' key = none) :
    ofLookup lookup' = ofLookup lookup := by
  have same : optional lookup' = optional lookup := funext fun key =>
    optional_congr ((blank key).imp_right fun ⟨unset, absent⟩ =>
      ⟨unset, absent ▸ unset_none⟩)
  unfold ofLookup attempts required
  unfold parsed
  rw [same]

theorem bounds_of_settles {n : Nat} (h : Field.maxAttempts.Settles value n) :
    1 ≤ n ∧ n ≤ Text.limit32 := by
  by_cases unset : Unset value
  · cases (settles_of_unset_iff unset).mp h
    decide
  · obtain ⟨raw, rfl⟩ := exists_of_set unset
    obtain ⟨hx, allowed⟩ := (settles_of_set_iff unset).mp h
    have read : Text.natural Text.limit32 (Text.trim raw) = .ok n := hx
    exact ⟨allowed, Text.natural_le read⟩

/-- The options of a consumer are what their variables settle. -/
structure Carries (lookup : Lookup) (options : ConsumerOptions) : Prop where
  queue : Field.queueName.Settles (lookup "WORK_ITEM_QUEUE_NAME") options.queue
  pollInterval :
    Field.pollInterval.Settles (lookup "QUEUE_POLL_INTERVAL_SECS") options.pollInterval
  invisibility :
    Field.invisibility.Settles (lookup "QUEUE_MESSAGE_INVISIBILITY_SECS") options.invisibility
  maxAttempts : Field.maxAttempts.Settles (lookup "MAX_WORK_ITEM_ATTEMPTS") options.maxAttempts
  positive : 1 ≤ options.maxAttempts
  bounded : options.maxAttempts ≤ Text.limit32

theorem carries_consumerOptions {s : Settings} (read : ofLookup lookup = .ok s) :
    Carries lookup s.consumerOptions := by
  have settled := ofLookup_eq_ok_iff.mp read
  have ⟨positive, bounded⟩ := bounds_of_settles (settled .maxAttempts)
  exact ⟨settled .queueName, settled .pollInterval, settled .invisibility, settled .maxAttempts,
    positive, bounded⟩

/-- Settings are read exactly if all variables are acceptable, and otherwise the failure names the
first that is not. Each field is what its own variable settles, a span as many seconds as are
written there; blanks around a parsed value and blank values make no difference, and the options of
a consumer are among what is settled. -/
theorem settled_by_variables (lookup : Lookup) :
    ((∃ s, ofLookup lookup = .ok s) ↔ ∀ f : Field, f.Acceptable (lookup f.name)) ∧
    (∀ failure, ofLookup lookup = .error failure → FirstRefused lookup examined failure) ∧
    (∀ s, ofLookup lookup = .ok s →
      (∀ f : Field, f.Settles (lookup f.name) (f.get s)) ∧
      (∀ lookup' s', ofLookup lookup' = .ok s' →
        ∀ f : Field, lookup' f.name = lookup f.name → f.get s' = f.get s) ∧
      (∀ lookup', (∀ f : Field, lookup' f.name = lookup f.name ∨
        f.isParsed = true ∧ Padded (lookup f.name) (lookup' f.name)) → ofLookup lookup' = .ok s) ∧
      Carries lookup s.consumerOptions) ∧
    ∀ lookup', (∀ key, lookup' key = lookup key ∨ Unset (lookup key) ∧ lookup' key = none) →
      ofLookup lookup' = ofLookup lookup := by
  refine ⟨exists_ofLookup_iff, (examines_ofLookup lookup).refused, fun s read => ?_,
    fun lookup' => ofLookup_of_blank⟩
  have settled := ofLookup_eq_ok_iff.mp read
  refine ⟨settled, fun lookup' s' read' f same => ?_, fun lookup' => ofLookup_of_padded read,
    carries_consumerOptions read⟩
  have settled' := ofLookup_eq_ok_iff.mp read' f
  rw [same] at settled'
  exact settled'.functional (settled f)

end Settings
end WorkQueue
