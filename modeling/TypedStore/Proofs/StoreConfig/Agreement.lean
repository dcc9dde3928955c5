import TypedStore.Migration.Endpoint
import TypedStore.Proofs.Number.Integer
import TypedStore.Proofs.Outcome
import TypedStore.StoreConfig.Environment

/-!
# Two ways to configure the remote engine

The settings of the remote engine may come from variables of the environment or
from the table of an endpoint in a plan.  `RedisChoices` is what somebody wants,
each setting chosen or left open and times in whole seconds; it is written down
as variables (`RedisChoices.environment`) and as a table (`RedisChoices.table`).

Both ways refuse a user name without a password.  Variables count times in
milliseconds, so a time of which the milliseconds do not fit a word can be said
in a plan only.  A plan takes a pool size or a time of zero as not given, and
variables do not; whatever is chosen otherwise comes out the same.
-/

namespace TypedStore

/-- Choices for the settings of the remote engine. -/
structure RedisChoices where
  addr : Option String := none
  username : Option String := none
  password : Option String := none
  db : Option Int64 := none
  poolSize : Option UInt64 := none
  tls : Option Bool := none
  keyPrefix : Option String := none
  timeoutSeconds : Option UInt64 := none
  expireSeconds : Option UInt64 := none
  deriving DecidableEq

namespace RedisChoices

/-! ## Choices in writing -/

/-- A time as a variable gives it, in milliseconds. -/
def millisText (seconds : UInt64) : String :=
  toString (seconds.toNat * 1000)

/-- The variables for the remote engine, those that are set with their texts. -/
def assignments (choices : RedisChoices) : List (String × Option String) :=
  [("TIDEMAP_BACKEND", some "redis"),
    ("TIDEMAP_REDIS_ADDR", choices.addr),
    ("TIDEMAP_REDIS_USERNAME", choices.username),
    ("TIDEMAP_REDIS_PASSWORD", choices.password),
    ("TIDEMAP_REDIS_DB", choices.db.map fun db => toString db.toInt),
    ("TIDEMAP_REDIS_POOL_SIZE", choices.poolSize.map fun size => toString size.toNat),
    ("TIDEMAP_REDIS_TLS", choices.tls.map RedisOptions.truthText),
    ("TIDEMAP_REDIS_PREFIX", choices.keyPrefix),
    ("TIDEMAP_REDIS_TIMEOUT_MS", choices.timeoutSeconds.map millisText),
    ("TIDEMAP_REDIS_EXPIRE_MS", choices.expireSeconds.map millisText)]

/-- The choices as variables. -/
def environment (choices : RedisChoices) : Environment :=
  fun name => (choices.assignments.lookup name).join

/-- A number that is not negative as a plan writes it. -/
def planNumber (number : UInt64) : Toml.Value :=
  .integer (Int64.ofNat number.toNat)

/-- The settings of an endpoint, those that are given with their values. -/
def settings (choices : RedisChoices) : List (String × Option Toml.Value) :=
  [("backend", some (.text "redis")),
    ("addr", choices.addr.map .text),
    ("username", choices.username.map .text),
    ("password", choices.password.map .text),
    ("db", choices.db.map .integer),
    ("pool_size", choices.poolSize.map planNumber),
    ("tls", choices.tls.map .flag),
    ("prefix", choices.keyPrefix.map .text),
    ("timeout_secs", choices.timeoutSeconds.map planNumber),
    ("expire_secs", choices.expireSeconds.map planNumber)]

/-- The entries of the table of an endpoint. -/
def entries (choices : RedisChoices) : Toml.Entries :=
  choices.settings.filterMap fun (label, value) => value.map (label, ·)

/-- The choices as the table of an endpoint. -/
def table (choices : RedisChoices) : Toml.Value :=
  .table .header choices.entries

/-- The endpoint that has the chosen settings. -/
def endpoint (choices : RedisChoices) : RedisEndpoint :=
  let defaults : RedisEndpoint := {}
  { addr := choices.addr.getD defaults.addr
    username := choices.username
    password := choices.password
    db := choices.db.getD defaults.db
    poolSize := choices.poolSize
    tls := choices.tls.getD defaults.tls
    keyPrefix := choices.keyPrefix
    timeoutSeconds := choices.timeoutSeconds
    expireSeconds := choices.expireSeconds }

/-! ## Kinds of choices -/

/-- Whether a user name is chosen without a password. -/
def UsernameAlone (choices : RedisChoices) : Prop :=
  choices.username.isSome = true ∧ choices.password = none

/-- Whether the milliseconds of a time fit a word. -/
def FitsMillis (seconds : UInt64) : Prop :=
  seconds.toNat * 1000 < UInt64.size

/-- Whether the milliseconds of the chosen times fit a word. -/
def TimesFit (choices : RedisChoices) : Prop :=
  (∀ seconds ∈ choices.timeoutSeconds, FitsMillis seconds) ∧
    ∀ seconds ∈ choices.expireSeconds, FitsMillis seconds

/-- Whether the chosen numbers can be written in a plan, where integers are
signed words. -/
def Writable (choices : RedisChoices) : Prop :=
  ∀ number : UInt64, some number = choices.poolSize ∨ some number = choices.timeoutSeconds ∨
    some number = choices.expireSeconds → number.toNat < 0x8000000000000000

/-- The same choices with pool sizes and times of zero left open. -/
def withoutZeros (choices : RedisChoices) : RedisChoices :=
  { choices with
    poolSize := RedisEndpoint.nonzero choices.poolSize
    timeoutSeconds := RedisEndpoint.nonzero choices.timeoutSeconds
    expireSeconds := RedisEndpoint.nonzero choices.expireSeconds }

/-- The options that have the chosen settings, and the others by default. -/
def options (choices : RedisChoices) : RedisOptions :=
  let defaults : RedisOptions := {}
  { defaults with
    addr := choices.addr.getD defaults.addr
    username := choices.username
    password := choices.password
    db := choices.db.getD defaults.db
    poolSize := choices.poolSize.getD defaults.poolSize
    tls := choices.tls.getD defaults.tls
    keyPrefix := choices.keyPrefix.getD defaults.keyPrefix
    timeout := (choices.timeoutSeconds.map .ofSeconds).getD defaults.timeout
    expire := choices.expireSeconds.map .ofSeconds }

instance (choices : RedisChoices) : Decidable choices.UsernameAlone :=
  inferInstanceAs (Decidable (_ ∧ _))

/-- Fewer or more zeros leave the credentials as they are. -/
theorem usernameAlone_withoutZeros (choices : RedisChoices) :
    choices.withoutZeros.UsernameAlone ↔ choices.UsernameAlone :=
  Iff.rfl

/-! ## What variables say -/

theorem ofMillis_of_fitsMillis {seconds : UInt64} (fits : FitsMillis seconds) :
    Duration.ofMillis (UInt64.ofNat (seconds.toNat * 1000)) = .ofSeconds seconds := by
  have millis : (UInt64.ofNat (seconds.toNat * 1000)).toNat = seconds.toNat * 1000 :=
    UInt64.toNat_ofNat_of_lt' fits
  have whole : UInt64.ofNat (seconds.toNat * 1000) / 1000 = seconds := by
    apply UInt64.toNat_inj.mp
    rw [UInt64.toNat_div, millis]
    exact Nat.mul_div_cancel _ (by decide)
  have part : (UInt64.ofNat (seconds.toNat * 1000) % 1000).toNat = 0 := by
    rw [UInt64.toNat_mod, millis]
    exact Nat.mul_mod_left _ _
  rw [Duration.ofMillis, Duration.ofSeconds, Duration.mk.injEq]
  exact ⟨whole, by rw [part]⟩

theorem millis?_of_fitsMillis {seconds : UInt64} (fits : FitsMillis seconds) :
    Environment.millis? (millisText seconds) = some (.ofSeconds seconds) := by
  have small : seconds.toNat * 1000 < UInt64.size := fits
  rw [Environment.millis?, millisText, Number.readWord?_toString, if_pos small, Option.map_some,
    ofMillis_of_fitsMillis fits]

theorem millis?_of_not_fitsMillis {seconds : UInt64} (long : ¬FitsMillis seconds) :
    Environment.millis? (millisText seconds) = none := by
  have great : ¬seconds.toNat * 1000 < UInt64.size := long
  rw [Environment.millis?, millisText, Number.readWord?_toString, if_neg great]
  rfl

/-- A variable that is set to the text of a value reads as that value. -/
theorem parsed_of_texts {α β : Type} {environment : Environment} {name : String}
    {chosen : Option α} {text : α → String} {read? : String → Option β} {meant : α → β}
    (written : environment name = chosen.map text)
    (tight : ∀ value ∈ chosen, Text.trim (text value) = text value)
    (reads : ∀ value ∈ chosen, read? (text value) = some (meant value)) :
    environment.parsed name read? = .ok (chosen.map meant) := by
  rw [Environment.parsed, written]
  cases chosen with
  | none => rfl
  | some value =>
    dsimp only [Option.map_some]
    rw [tight value rfl, reads value rfl]

theorem parsed_of_itself {α : Type} {environment : Environment} {name : String}
    {chosen : Option α} {text : α → String} {read? : String → Option α}
    (written : environment name = chosen.map text)
    (tight : ∀ value ∈ chosen, Text.trim (text value) = text value)
    (reads : ∀ value ∈ chosen, read? (text value) = some value) :
    environment.parsed name read? = .ok chosen := by
  have parsed := parsed_of_texts written tight reads
  rw [Option.map_id'] at parsed
  exact parsed

theorem parsed_of_unreadable {α β : Type} {environment : Environment} {name : String}
    {value : α} {text : α → String} {read? : String → Option β}
    (written : environment name = some (text value)) (tight : Text.trim (text value) = text value)
    (unreadable : read? (text value) = none) :
    environment.parsed name read? = .error (.invalidSetting name (text value)) := by
  rw [Environment.parsed, written]
  dsimp only
  rw [tight, unreadable]

theorem flag?_truthText (value : Bool) :
    Text.trim (RedisOptions.truthText value) = RedisOptions.truthText value ∧
      Environment.flag? (RedisOptions.truthText value) = some value := by
  cases value <;> decide +kernel

theorem parsed_db (choices : RedisChoices) :
    choices.environment.parsed "TIDEMAP_REDIS_DB" Number.readSigned? = .ok choices.db := by
  have written : choices.environment "TIDEMAP_REDIS_DB" =
      choices.db.map fun db => toString db.toInt := rfl
  exact parsed_of_itself written (fun db _ => Number.trim_toString_int db.toInt)
    fun db _ => Number.readSigned?_toString db

theorem parsed_poolSize (choices : RedisChoices) :
    choices.environment.parsed "TIDEMAP_REDIS_POOL_SIZE" Number.readWord? =
      .ok choices.poolSize := by
  have written : choices.environment "TIDEMAP_REDIS_POOL_SIZE" =
      choices.poolSize.map fun size => toString size.toNat := rfl
  exact parsed_of_itself written (fun size _ => Number.trim_toString size.toNat)
    fun size _ => Number.readWord?_toString_toNat size

theorem parsed_tls (choices : RedisChoices) :
    choices.environment.parsed "TIDEMAP_REDIS_TLS" Environment.flag? = .ok choices.tls := by
  have written : choices.environment "TIDEMAP_REDIS_TLS" =
      choices.tls.map RedisOptions.truthText := rfl
  exact parsed_of_itself written (fun tls _ => (flag?_truthText tls).1)
    fun tls _ => (flag?_truthText tls).2

theorem trim_millisText (seconds : UInt64) : Text.trim (millisText seconds) = millisText seconds :=
  Number.trim_toString _

/-- A variable for a time reads as that time when its milliseconds fit a word. -/
theorem parsed_millis {environment : Environment} {name : String} {chosen : Option UInt64}
    (written : environment name = chosen.map millisText)
    (fits : ∀ seconds ∈ chosen, FitsMillis seconds) :
    environment.parsed name Environment.millis? = .ok (chosen.map .ofSeconds) :=
  parsed_of_texts written (fun seconds _ => trim_millisText seconds)
    (fun seconds member => millis?_of_fitsMillis (fits seconds member))

/-- Otherwise it is a fault. -/
theorem parsed_millis_of_long {environment : Environment} {name : String}
    {chosen : Option UInt64} (written : environment name = chosen.map millisText)
    (long : ¬∀ seconds ∈ chosen, FitsMillis seconds) :
    ∃ fault, environment.parsed name Environment.millis? = .error fault := by
  simp only [not_forall] at long
  rcases long with ⟨seconds, member, long⟩
  rw [Option.mem_def.mp member] at written
  exact ⟨_, parsed_of_unreadable written (trim_millisText seconds)
    (millis?_of_not_fitsMillis long)⟩

/-- The variables choose the remote engine. -/
theorem config_environment (choices : RedisChoices) :
    choices.environment.config = choices.environment.redis.map .redis := by
  have chosen : choices.environment "TIDEMAP_BACKEND" = some "redis" := rfl
  have name : Text.lowercase "redis" = "redis" := by decide +kernel
  rw [Environment.config, chosen, Option.getD_some, name]
  rfl

theorem credentials_of_not_alone {choices : RedisChoices} (paired : ¬choices.UsernameAlone)
    (options : RedisOptions) (plain : options.username = none ∧ options.password = none) :
    choices.environment.credentials options =
      .ok { options with username := choices.username, password := choices.password } := by
  have username : choices.environment "TIDEMAP_REDIS_USERNAME" = choices.username := rfl
  have password : choices.environment "TIDEMAP_REDIS_PASSWORD" = choices.password := rfl
  rw [Environment.credentials, username, password]
  cases user : choices.username with
  | none =>
    cases choices.password with
    | none =>
      rcases options with ⟨⟩
      rcases plain with ⟨rfl, rfl⟩
      rfl
    | some pass => rfl
  | some name =>
    cases pass : choices.password with
    | none => exact absurd ⟨by rw [user]; rfl, pass⟩ paired
    | some pass => rfl

theorem redis_of_alone {choices : RedisChoices} (alone : choices.UsernameAlone) :
    choices.environment.redis = .error .usernameVariableAlone := by
  have username : choices.environment "TIDEMAP_REDIS_USERNAME" = choices.username := rfl
  have password : choices.environment "TIDEMAP_REDIS_PASSWORD" = none := alone.2
  rcases Option.isSome_iff_exists.mp alone.1 with ⟨name, chosen⟩
  rw [Environment.redis, Environment.credentials, username, password, chosen]
  rfl

theorem redis_of_timesFit {choices : RedisChoices} (paired : ¬choices.UsernameAlone)
    (fits : choices.TimesFit) : choices.environment.redis = .ok choices.options := by
  rw [Environment.redis, credentials_of_not_alone paired _ ⟨rfl, rfl⟩, ok_bind, parsed_db, ok_bind,
    parsed_poolSize, ok_bind, parsed_tls, ok_bind, parsed_millis rfl fits.1, ok_bind,
    parsed_millis rfl fits.2, ok_bind]
  rfl

theorem redis_of_not_timesFit {choices : RedisChoices} (paired : ¬choices.UsernameAlone)
    (long : ¬choices.TimesFit) : ∃ fault, choices.environment.redis = .error fault := by
  rw [Environment.redis, credentials_of_not_alone paired _ ⟨rfl, rfl⟩, ok_bind, parsed_db, ok_bind,
    parsed_poolSize, ok_bind, parsed_tls, ok_bind]
  by_cases timeout : ∀ seconds ∈ choices.timeoutSeconds, FitsMillis seconds
  · have written : choices.environment "TIDEMAP_REDIS_EXPIRE_MS" =
        choices.expireSeconds.map millisText := rfl
    rcases parsed_millis_of_long written (fun expire => long ⟨timeout, expire⟩) with
      ⟨fault, refused⟩
    rw [parsed_millis rfl timeout, ok_bind, refused]
    exact ⟨fault, rfl⟩
  · have written : choices.environment "TIDEMAP_REDIS_TIMEOUT_MS" =
        choices.timeoutSeconds.map millisText := rfl
    rcases parsed_millis_of_long written timeout with ⟨fault, refused⟩
    rw [refused]
    exact ⟨fault, rfl⟩

/-- Variables refuse a user name alone and times that are too long for them. -/
theorem environment_refused_iff (choices : RedisChoices) :
    (∃ fault, choices.environment.config = .error fault) ↔
      choices.UsernameAlone ∨ ¬choices.TimesFit := by
  rw [config_environment]
  by_cases alone : choices.UsernameAlone
  · rw [redis_of_alone alone]
    exact iff_of_true ⟨_, rfl⟩ (.inl alone)
  · by_cases fits : choices.TimesFit
    · rw [redis_of_timesFit alone fits]
      refine iff_of_false ?_ (fun either => either.elim alone (· fits))
      rintro ⟨fault, impossible⟩
      cases impossible
    · rcases redis_of_not_timesFit alone fits with ⟨fault, refused⟩
      rw [refused]
      exact iff_of_true ⟨fault, rfl⟩ (.inr fits)

/-! ## What a plan says -/

theorem config_endpoint (choices : RedisChoices) :
    (Endpoint.redis choices.endpoint).config =
      if choices.UsernameAlone then .error .usernameWithoutPassword
      else .ok (.redis choices.withoutZeros.options) := by
  by_cases alone : choices.UsernameAlone
  · rcases Option.isSome_iff_exists.mp alone.1 with ⟨name, chosen⟩
    have username : choices.endpoint.username = some name := chosen
    have password : choices.endpoint.password = none := alone.2
    rw [if_pos alone, Endpoint.config, RedisEndpoint.options, username, password]
    rfl
  · rw [if_neg alone, Endpoint.config, RedisEndpoint.options]
    rcases choices with ⟨addr, username, password, db, poolSize, tls, keyPrefix, timeout, expire⟩
    cases username with
    | none => cases password <;> rfl
    | some name =>
      cases password with
      | none => exact absurd ⟨rfl, rfl⟩ alone
      | some pass => rfl

/-! ## Reading the table -/

/-- What is given under a label is found under it, and nothing else is. -/
theorem lookup_given {α : Type} (label : String) {settings : List (String × Option α)}
    (distinct : (settings.map Prod.fst).Nodup) :
    (settings.filterMap fun (label, value) => value.map (label, ·)).lookup label =
      (settings.lookup label).join := by
  induction settings with
  | nil => rfl
  | cons setting rest hypothesis =>
    rcases setting with ⟨other, value⟩
    have parts := List.nodup_cons.mp distinct
    have later := hypothesis parts.2
    by_cases same : label = other
    · subst same
      have absent : rest.lookup label = none := by
        apply List.lookup_eq_none_iff.mpr
        intro setting member
        apply bne_iff_ne.mpr
        intro equal
        exact parts.1 (List.mem_map.mpr ⟨setting, member, equal.symm⟩)
      cases value with
      | none => simp [later, absent]
      | some value => simp
    · have different : (label == other) = false := beq_false_of_ne same
      cases value with
      | none => simp [List.lookup_cons, different, later]
      | some value => simp [List.lookup_cons, different, later]

theorem get?_entries (choices : RedisChoices) (label : String) :
    choices.entries.get? label = (choices.settings.lookup label).join :=
  lookup_given label (by simp [settings])

/-- A setting that is written as a value reads as it was chosen. -/
theorem read?_of_written {α : Type} {entries : Toml.Entries} {label : String}
    {chosen : Option α} {write : α → Toml.Value} {read : Toml.Value → Option α}
    (written : entries.get? label = chosen.map write)
    (reads : ∀ value ∈ chosen, read (write value) = some value) :
    entries.read? read label = some chosen := by
  rw [Toml.Entries.read?, written]
  cases chosen with
  | none => rfl
  | some value =>
    dsimp only [Option.map_some]
    rw [reads value rfl]
    rfl

theorem word?_planNumber {number : UInt64} (small : number.toNat < 0x8000000000000000) :
    (planNumber number).word? = some number := by
  have same : (Int64.ofNat number.toNat).toInt = number.toNat :=
    Int64.toInt_ofNat_of_lt small
  change (if 0 ≤ (Int64.ofNat number.toNat).toInt then
    some (UInt64.ofNat (Int64.ofNat number.toNat).toInt.toNat) else none) = some number
  rw [same, if_pos (Int.natCast_nonneg _), Int.toNat_natCast, UInt64.ofNat_toNat]

theorem read?_text {entries : Toml.Entries} {label : String} {chosen : Option String}
    (written : entries.get? label = chosen.map .text) :
    entries.read? Toml.Value.text? label = some chosen :=
  read?_of_written written fun _ _ => rfl

theorem read?_number {entries : Toml.Entries} {label : String} {chosen : Option UInt64}
    (written : entries.get? label = chosen.map planNumber)
    (small : ∀ number ∈ chosen, number.toNat < 0x8000000000000000) :
    entries.read? Toml.Value.word? label = some chosen :=
  read?_of_written written fun number member => word?_planNumber (small number member)

/-- The settings that the table gives are those chosen. -/
theorem ofEntries?_entries {choices : RedisChoices} (writable : choices.Writable) :
    RedisEndpoint.ofEntries? choices.entries = some choices.endpoint := by
  have addr := read?_text (choices.get?_entries "addr")
  have username := read?_text (choices.get?_entries "username")
  have password := read?_text (choices.get?_entries "password")
  have keyPrefix := read?_text (choices.get?_entries "prefix")
  have db : choices.entries.read? Toml.Value.integer? "db" = some choices.db :=
    read?_of_written (choices.get?_entries "db") fun _ _ => rfl
  have tls : choices.entries.read? Toml.Value.flag? "tls" = some choices.tls :=
    read?_of_written (choices.get?_entries "tls") fun _ _ => rfl
  have poolSize := read?_number (choices.get?_entries "pool_size")
    fun number member => writable number (.inl member.symm)
  have timeout := read?_number (choices.get?_entries "timeout_secs")
    fun number member => writable number (.inr (.inl member.symm))
  have expire := read?_number (choices.get?_entries "expire_secs")
    fun number member => writable number (.inr (.inr member.symm))
  have maxRetries : choices.entries.read? Toml.Value.halfWord? "max_retries" = some none := by
    rw [Toml.Entries.read?, get?_entries]
    rfl
  rw [RedisEndpoint.ofEntries?, addr, username, password, db, poolSize, maxRetries, tls, keyPrefix,
    timeout, expire]
  rfl

/-- The table of the choices is read as their endpoint. -/
theorem ofToml?_table {choices : RedisChoices} (writable : choices.Writable) :
    Endpoint.ofToml? choices.table = some (.redis choices.endpoint) := by
  have backend : choices.entries.get? "backend" = some (.text "redis") :=
    choices.get?_entries "backend"
  have chosen : Endpoint.ofEntries? "redis" choices.entries =
      some (.redis choices.endpoint) := by
    rw [Endpoint.ofEntries?, ofEntries?_entries writable]
    rfl
  change (do
    let backend ← choices.entries.get? "backend"
    Endpoint.ofEntries? (← backend.text?) choices.entries) = _
  rw [backend]
  exact chosen

/-! ## Both ways -/

/-- Leaving zeros open changes a number only if it is zero. -/
theorem nonzero_of_ne {chosen : Option UInt64} (different : chosen ≠ some 0) :
    RedisEndpoint.nonzero chosen = chosen := by
  cases chosen with
  | none => rfl
  | some number =>
    have kept : number ≠ 0 := fun zero => different (congrArg some zero)
    exact Option.filter_some_pos (bne_iff_ne.mpr kept)

/-- A plan refuses a user name alone.  Variables refuse that, and times of which the
milliseconds do not fit a word.  What both accept has the same options, except for a
pool size, a timeout or an expiry of zero, which a plan takes as not given. -/
theorem variables_and_plan_agree (choices : RedisChoices) :
    ((∃ fault, (Endpoint.redis choices.endpoint).config = .error fault) ↔
      choices.UsernameAlone) ∧
    ((∃ fault, choices.environment.config = .error fault) ↔
      choices.UsernameAlone ∨ ¬choices.TimesFit) ∧
    (¬choices.UsernameAlone → choices.TimesFit → ∃ options other : RedisOptions,
      choices.environment.config = .ok (.redis options) ∧
      (Endpoint.redis choices.endpoint).config = .ok (.redis other) ∧
      (choices.poolSize ≠ some 0 → options.poolSize = other.poolSize) ∧
      (choices.timeoutSeconds ≠ some 0 → options.timeout = other.timeout) ∧
      (choices.expireSeconds ≠ some 0 → options.expire = other.expire) ∧
      { options with
        poolSize := other.poolSize, timeout := other.timeout, expire := other.expire } = other) ∧
    (Endpoint.redis choices.endpoint).config =
      (Endpoint.redis choices.withoutZeros.endpoint).config ∧
    (choices.Writable → Endpoint.ofToml? choices.table = some (.redis choices.endpoint)) := by
  refine ⟨?_, choices.environment_refused_iff, ?_, ?_, ofToml?_table⟩
  · rw [config_endpoint]
    split
    · next alone => exact iff_of_true ⟨_, rfl⟩ alone
    · next paired =>
      refine iff_of_false ?_ paired
      rintro ⟨fault, impossible⟩
      cases impossible
  · intro paired fits
    refine ⟨choices.options, choices.withoutZeros.options, ?_, ?_, ?_, ?_, ?_, rfl⟩
    · rw [config_environment, redis_of_timesFit paired fits]
      rfl
    · rw [config_endpoint, if_neg paired]
    · intro different
      exact congrArg (·.getD ({} : RedisOptions).poolSize) (nonzero_of_ne different).symm
    · intro different
      exact congrArg (fun chosen => (chosen.map .ofSeconds).getD ({} : RedisOptions).timeout)
        (nonzero_of_ne different).symm
    · intro different
      exact congrArg (·.map Duration.ofSeconds) (nonzero_of_ne different).symm
  · have again : choices.withoutZeros.withoutZeros = choices.withoutZeros := by
      have twice : ∀ chosen, RedisEndpoint.nonzero (RedisEndpoint.nonzero chosen) =
          RedisEndpoint.nonzero chosen := by
        intro chosen
        rw [RedisEndpoint.nonzero, RedisEndpoint.nonzero, Option.filter_filter]
        simp only [Bool.and_self]
      rw [RedisChoices.mk.injEq]
      exact ⟨rfl, rfl, rfl, rfl, twice _, rfl, rfl, twice _, twice _⟩
    rw [config_endpoint, config_endpoint, again,
      if_congr choices.usernameAlone_withoutZeros rfl rfl]

/-- Everything chosen, the longest timeout that variables can say, and an expiry of zero. -/
def cache : RedisChoices where
  addr := some "cache:6380"
  username := some "app"
  password := some "pw"
  db := some (-3)
  poolSize := some 7
  tls := some true
  keyPrefix := some "日_"
  timeoutSeconds := some 18446744073709551
  expireSeconds := some 0

theorem cache_timesFit : cache.TimesFit := by
  constructor <;>
  · rintro seconds ⟨⟩
    rw [FitsMillis]
    decide

theorem cache_writable : cache.Writable := by
  rintro number (chosen | chosen | chosen) <;> cases chosen <;> decide

/-- The cache has the same timeout either way, and all else but the expiry. -/
theorem cache_agrees_but_for_expiry :
    (¬cache.UsernameAlone ∧ cache.TimesFit ∧ cache.Writable ∧ cache.timeoutSeconds ≠ some 0) ∧
    Endpoint.ofToml? cache.table = some (.redis cache.endpoint) ∧
    ∃ options other : RedisOptions,
      cache.environment.config = .ok (.redis options) ∧
      (Endpoint.redis cache.endpoint).config = .ok (.redis other) ∧
      options.timeout = other.timeout ∧
      { options with
        poolSize := other.poolSize, timeout := other.timeout, expire := other.expire } = other := by
  have paired : ¬cache.UsernameAlone := by decide
  have chosen : cache.timeoutSeconds ≠ some 0 := by decide
  rcases variables_and_plan_agree cache with ⟨_, _, agree, _, reads⟩
  rcases agree paired cache_timesFit with ⟨options, other, given, planned, _, timeout, _, rest⟩
  exact ⟨⟨paired, cache_timesFit, cache_writable, chosen⟩, reads cache_writable, options, other,
    given, planned, timeout chosen, rest⟩

/-- An expiry of zero and nothing else. -/
def zeroExpiry : RedisChoices where
  expireSeconds := some 0

/-- A timeout one second longer than variables can say, and nothing else. -/
def longTimeout : RedisChoices where
  timeoutSeconds := some 18446744073709552

/-- An expiry of zero is kept by variables and not given in a plan, and a timeout that is
too long for variables is accepted in a plan. -/
theorem zero_and_long_times_differ :
    (zeroExpiry.environment.config = .ok (.redis { expire := some (.ofSeconds 0) }) ∧
      (Endpoint.redis zeroExpiry.endpoint).config = .ok (.redis { expire := none }) ∧
      zeroExpiry.environment.config.toOption ≠
        (Endpoint.redis zeroExpiry.endpoint).config.toOption) ∧
    longTimeout.environment.config =
      .error (.invalidSetting "TIDEMAP_REDIS_TIMEOUT_MS" "18446744073709552000") ∧
    (Endpoint.redis longTimeout.endpoint).config =
      .ok (.redis { timeout := .ofSeconds 18446744073709552 }) := by
  decide +kernel

end RedisChoices
end TypedStore
