import OpenAirplay2.Lib.CommandLine
import OpenAirplay2.Lib.Hex
import OpenAirplay2.Lib.Marks
import OpenAirplay2.Lib.Str

/-!
# The options of the receiver

Options come as flags and as variables of the environment.  A later flag
overrides an earlier one and every flag overrides its variable, setting by
setting; a variable that is empty is not set.
-/

namespace OpenAirplay2.Receiver.Options

open OpenAirplay2.Lib
open OpenAirplay2.Lib.CommandLine
open OpenAirplay2.Lib.Str

/-! ## Values -/

/-- `str::parse::<u16>`. -/
def parseU16 (text : String) : Option UInt16 :=
  (parseU32 text).bind fun value =>
    if value.toNat < 2 ^ 16 then some (UInt16.ofNat value.toNat) else none

/-- The bytes of `AA:BB:CC:DD:EE:FF`. -/
def parseMac (text : String) : Option (List UInt8) :=
  let parts := split (trim text) ':'
  if parts.length = 6 then parts.mapM Hex.fromStrRadix16 else none

def portValue (value : String) : Except String UInt16 :=
  match parseU16 value with
  | some port => .ok port
  | none => .error ("needs a number 1-65535, not \"" ++ value ++ "\"")

def macValue (value : String) : Except String (List UInt8) :=
  match parseMac value with
  | some mac => .ok mac
  | none => .error ("needs AA:BB:CC:DD:EE:FF, not \"" ++ value ++ "\"")

/-- A level in lower case. -/
def logLevelValue (value : String) : Except String String :=
  let level := String.ofList (value.toList.map Char.toLower)
  if level ∈ ["error", "warn", "info", "debug", "trace"] then .ok level
  else
    .error
      ("must be error, warn, info, debug or trace, not \"" ++ value ++ "\"")

def onOffValue (value : String) : Except String Bool :=
  if value = "on" then .ok true
  else if value = "off" then .ok false
  else .error ("must be \"on\" or \"off\", not \"" ++ value ++ "\"")

/-- A message that begins with the name of the flag or the variable. -/
def named {α : Type} (name : String) (value : Except String α) :
    Except String α :=
  value.mapError fun message => name ++ " " ++ message

/-! ## The command line -/

/-- Everything is optional. -/
@[ext]
structure Args where
  name : Option String
  port : Option UInt16
  mac : Option (List UInt8)
  identityFile : Option String
  avahi : Option Bool
  audio : Option Bool
  alsaDevice : Option String
  mixer : Option String
  mixerDevice : Option String
  password : Option String
  tuiSocket : Option String
  tuiListen : Option String
  tuiPassword : Option String
  logLevel : Option String
deriving DecidableEq, Repr

/-- Nothing given on the command line. -/
def Args.empty : Args where
  name := none
  port := none
  mac := none
  identityFile := none
  avahi := none
  audio := none
  alsaDevice := none
  mixer := none
  mixerDevice := none
  password := none
  tuiSocket := none
  tuiListen := none
  tuiPassword := none
  logLevel := none

/-- What prints and exits. -/
inductive Info where
  | help
  | version
  | listDevices
  | listAllDevices
  | listMixers
deriving DecidableEq, Repr

/-- The arguments that are known. -/
inductive Key where
  | name
  | port
  | mac
  | identityFile
  | noAvahi
  | alsaDevice
  | noAudio
  | mixer
  | mixerDevice
  | password
  | pincode
  | tuiSocket
  | tuiListen
  | tuiPassword
  | logLevel
  | debug
  | listDevices
  | listAllDevices
  | listMixers
  | version
  | help
deriving DecidableEq, Repr

/-- How they are written. -/
def key : String → Option Key
  | "--name" => some .name
  | "--port" => some .port
  | "--mac" => some .mac
  | "--identity-file" => some .identityFile
  | "--no-avahi" => some .noAvahi
  | "--alsa-device" => some .alsaDevice
  | "--no-audio" => some .noAudio
  | "--mixer" => some .mixer
  | "--mixer-device" => some .mixerDevice
  | "--password" => some .password
  | "--pincode" => some .pincode
  | "--tui-socket" => some .tuiSocket
  | "--tui-listen" => some .tuiListen
  | "--tui-password" => some .tuiPassword
  | "--log-level" => some .logLevel
  | "--debug" => some .debug
  | "--list-devices" => some .listDevices
  | "--list-all-devices" => some .listAllDevices
  | "--list-mixers" => some .listMixers
  | "--version" => some .version
  | "-h" => some .help
  | "--help" => some .help
  | _ => none

/-- What they set. -/
def Key.flag : Key → Flag Args Info
  | .name => .value fun value args => .ok { args with name := some value }
  | .port =>
      .value fun value args =>
        (named "--port" (portValue value)).map fun port =>
          { args with port := some port }
  | .mac =>
      .value fun value args =>
        (named "--mac" (macValue value)).map fun mac =>
          { args with mac := some mac }
  | .identityFile =>
      .value fun value args =>
        .ok { args with identityFile := some value }
  | .noAvahi => .plain fun args => .ok { args with avahi := some false }
  | .alsaDevice =>
      -- Naming a device turns audio back on.
      .value fun value args =>
        .ok { args with alsaDevice := some value, audio := some true }
  | .noAudio => .plain fun args => .ok { args with audio := some false }
  | .mixer => .value fun value args => .ok { args with mixer := some value }
  | .mixerDevice =>
      .value fun value args => .ok { args with mixerDevice := some value }
  | .password =>
      .value fun value args => .ok { args with password := some value }
  | .pincode =>
      .value fun value args => .ok { args with password := some value }
  | .tuiSocket =>
      .value fun value args => .ok { args with tuiSocket := some value }
  | .tuiListen =>
      .value fun value args => .ok { args with tuiListen := some value }
  | .tuiPassword =>
      .value fun value args => .ok { args with tuiPassword := some value }
  | .logLevel =>
      .value fun value args =>
        (named "--log-level" (logLevelValue value)).map fun level =>
          { args with logLevel := some level }
  | .debug => .plain fun args => .ok { args with logLevel := some "debug" }
  | .listDevices => .info .listDevices
  | .listAllDevices => .info .listAllDevices
  | .listMixers => .info .listMixers
  | .version => .info .version
  | .help => .info .help

/-- The flags, and what they set. -/
def flag (arg : String) : Option (Flag Args Info) :=
  (key arg).map Key.flag

/-! ## The environment -/

/-- A variable that is empty is not set. -/
def lookup (env : String → Option String) (key : String) :
    Option String :=
  (env key).filter fun value => !value.isEmpty

/-- What a flag left unset is read from the variable. -/
def fill {α : Type}
    (given : Option α) (name : String) (found : Option String)
    (read : String → Except String α) : Except String (Option α) :=
  match given, found with
  | some value, _ => .ok (some value)
  | none, none => .ok none
  | none, some text => (named name (read text)).map some

/-- Fill whatever the command line left unset from the environment. -/
def resolve (args : Args) (env : String → Option String) :
    Except String Args := do
  let get := lookup env
  let args := { args with name := args.name.or (get "OPENAIRPLAY2_NAME") }
  let port ←
    fill args.port "OPENAIRPLAY2_PORT" (get "OPENAIRPLAY2_PORT") portValue
  let mac ←
    fill args.mac "OPENAIRPLAY2_MAC" (get "OPENAIRPLAY2_MAC") macValue
  let args :=
    { args with
      port := port
      mac := mac
      identityFile :=
        args.identityFile.or (get "OPENAIRPLAY2_IDENTITY_FILE") }
  let avahi ←
    fill args.avahi "OPENAIRPLAY2_AVAHI" (get "OPENAIRPLAY2_AVAHI")
      onOffValue
  let audio ←
    fill args.audio "OPENAIRPLAY2_AUDIO" (get "OPENAIRPLAY2_AUDIO")
      onOffValue
  let args :=
    { args with
      avahi := avahi
      audio := audio
      alsaDevice := args.alsaDevice.or (get "OPENAIRPLAY2_ALSA_DEVICE")
      mixer := args.mixer.or (get "OPENAIRPLAY2_MIXER")
      mixerDevice :=
        args.mixerDevice.or (get "OPENAIRPLAY2_MIXER_DEVICE")
      -- The old variable of the password is honored, the new one wins.
      password :=
        (args.password.or (get "OPENAIRPLAY2_PASSWORD")).or
          (get "OPENAIRPLAY2_PINCODE")
      tuiSocket := args.tuiSocket.or (get "OPENAIRPLAY2_TUI_SOCKET")
      tuiListen := args.tuiListen.or (get "OPENAIRPLAY2_TUI_LISTEN")
      tuiPassword :=
        args.tuiPassword.or (get "OPENAIRPLAY2_TUI_PASSWORD") }
  let logLevel ←
    fill args.logLevel "OPENAIRPLAY2_LOG_LEVEL"
      (get "OPENAIRPLAY2_LOG_LEVEL") logLevelValue
  return { args with logLevel := logLevel }

/-! ## What the settings mean -/

/-- The device to open; without audio there is none. -/
def effectiveDevice (args : Args) : Option String :=
  if args.audio.getD true then some (args.alsaDevice.getD "default")
  else none

/-- The card id in the name of a device. -/
def cardIdOf (name : String) : Option String :=
  (Marks.cut 'C' "ARD=".toList name.toList)[1]?.bind fun after =>
    let id := after.takeWhile fun char => char != ','
    if id.isEmpty then none else some (String.ofList id)

/-- The mixer device when none is configured. -/
def defaultMixerDevice (alsaDevice : Option String) : String :=
  ((alsaDevice.bind cardIdOf).map fun id => "hw:CARD=" ++ id).getD
    "default"

/-- The device and the control that follow the volume, if there are. -/
def mixerConfig (args : Args) :
    Except String (Option (String × String)) :=
  match args.mixer, args.mixerDevice with
  | none, none => .ok none
  | none, some _ =>
      .error
        ("--mixer-device (OPENAIRPLAY2_MIXER_DEVICE) needs --mixer " ++
          "(OPENAIRPLAY2_MIXER) to name the control to drive")
  | some control, some device => .ok (some (device, control))
  | some control, none =>
      .ok (some (defaultMixerDevice (effectiveDevice args), control))

/-- `%h` is the name of the host and `%%` is a percent sign. -/
def substituteChars (hostname : List Char) : List Char → List Char
  | [] => []
  | '%' :: 'h' :: rest => hostname ++ substituteChars hostname rest
  | '%' :: '%' :: rest => '%' :: substituteChars hostname rest
  | '%' :: other :: rest =>
      '%' :: other :: substituteChars hostname rest
  | ['%'] => ['%']
  | char :: rest => char :: substituteChars hostname rest

def substitute (name hostname : String) : String :=
  String.ofList (substituteChars hostname.toList name.toList)

/-- The name to advertise. -/
def displayName (configured hostname : Option String) : String :=
  match configured, hostname with
  | some name, some host => substitute name host
  | some name, none => name
  | none, some host => substitute "OpenAirPlay2 (%h)" host
  | none, none => "OpenAirPlay2"

/-! ## Layers of settings -/

/-- The first settings, and the second where these are not given. -/
def Args.override (upper lower : Args) : Args where
  name := upper.name.or lower.name
  port := upper.port.or lower.port
  mac := upper.mac.or lower.mac
  identityFile := upper.identityFile.or lower.identityFile
  avahi := upper.avahi.or lower.avahi
  audio := upper.audio.or lower.audio
  alsaDevice := upper.alsaDevice.or lower.alsaDevice
  mixer := upper.mixer.or lower.mixer
  mixerDevice := upper.mixerDevice.or lower.mixerDevice
  password := upper.password.or lower.password
  tuiSocket := upper.tuiSocket.or lower.tuiSocket
  tuiListen := upper.tuiListen.or lower.tuiListen
  tuiPassword := upper.tuiPassword.or lower.tuiPassword
  logLevel := upper.logLevel.or lower.logLevel

/-- What one flag says, with its value. -/
def Key.layer (value : String) : Key → Args
  | .name => { Args.empty with name := some value }
  | .port => { Args.empty with port := (portValue value).toOption }
  | .mac => { Args.empty with mac := (macValue value).toOption }
  | .identityFile => { Args.empty with identityFile := some value }
  | .noAvahi => { Args.empty with avahi := some false }
  | .alsaDevice =>
      { Args.empty with alsaDevice := some value, audio := some true }
  | .noAudio => { Args.empty with audio := some false }
  | .mixer => { Args.empty with mixer := some value }
  | .mixerDevice => { Args.empty with mixerDevice := some value }
  | .password => { Args.empty with password := some value }
  | .pincode => { Args.empty with password := some value }
  | .tuiSocket => { Args.empty with tuiSocket := some value }
  | .tuiListen => { Args.empty with tuiListen := some value }
  | .tuiPassword => { Args.empty with tuiPassword := some value }
  | .logLevel =>
      { Args.empty with logLevel := (logLevelValue value).toOption }
  | .debug => { Args.empty with logLevel := some "debug" }
  | _ => .empty

def ofFlag (item : String × String) : Args :=
  ((key item.1).map (Key.layer item.2)).getD .empty

/-- What the flags of a command line say together. -/
def ofFlags (line : List String) : Args :=
  (items flag line).foldl (fun lower item => (ofFlag item).override lower)
    .empty

/-- What the environment says. -/
def ofEnvironment (env : String → Option String) : Args where
  name := lookup env "OPENAIRPLAY2_NAME"
  port :=
    (lookup env "OPENAIRPLAY2_PORT").bind fun text =>
      (portValue text).toOption
  mac :=
    (lookup env "OPENAIRPLAY2_MAC").bind fun text =>
      (macValue text).toOption
  identityFile := lookup env "OPENAIRPLAY2_IDENTITY_FILE"
  avahi :=
    (lookup env "OPENAIRPLAY2_AVAHI").bind fun text =>
      (onOffValue text).toOption
  audio :=
    (lookup env "OPENAIRPLAY2_AUDIO").bind fun text =>
      (onOffValue text).toOption
  alsaDevice := lookup env "OPENAIRPLAY2_ALSA_DEVICE"
  mixer := lookup env "OPENAIRPLAY2_MIXER"
  mixerDevice := lookup env "OPENAIRPLAY2_MIXER_DEVICE"
  password :=
    (lookup env "OPENAIRPLAY2_PASSWORD").or
      (lookup env "OPENAIRPLAY2_PINCODE")
  tuiSocket := lookup env "OPENAIRPLAY2_TUI_SOCKET"
  tuiListen := lookup env "OPENAIRPLAY2_TUI_LISTEN"
  tuiPassword := lookup env "OPENAIRPLAY2_TUI_PASSWORD"
  logLevel :=
    (lookup env "OPENAIRPLAY2_LOG_LEVEL").bind fun text =>
      (logLevelValue text).toOption

/-- A variable that no flag overrides and that cannot be read. -/
def complaint {α : Type}
    (given : Option α) (name : String) (found : Option String)
    (read : String → Except String α) : Option String :=
  match given, found with
  | none, some text =>
      match named name (read text) with
      | .error message => some message
      | .ok _ => none
  | _, _ => none

/-- All of them, in the order in which they are read. -/
def complaints (args : Args) (env : String → Option String) :
    List String :=
  [complaint args.port "OPENAIRPLAY2_PORT"
      (lookup env "OPENAIRPLAY2_PORT") portValue,
    complaint args.mac "OPENAIRPLAY2_MAC" (lookup env "OPENAIRPLAY2_MAC")
      macValue,
    complaint args.avahi "OPENAIRPLAY2_AVAHI"
      (lookup env "OPENAIRPLAY2_AVAHI") onOffValue,
    complaint args.audio "OPENAIRPLAY2_AUDIO"
      (lookup env "OPENAIRPLAY2_AUDIO") onOffValue,
    complaint args.logLevel "OPENAIRPLAY2_LOG_LEVEL"
      (lookup env "OPENAIRPLAY2_LOG_LEVEL") logLevelValue].reduceOption

section Layers

variable
    {args next : Args}
    {arg given : String}

theorem map_named_eq_ok
    {α β : Type} {name : String} {value : Except String α}
    {change : α → β} {result : β}
    (isOk : (named name value).map change = .ok result) :
    ∃ found, value = .ok found ∧ change found = result := by
  cases value with
  | error message => cases isOk
  | ok found =>
      cases isOk
      exact ⟨found, rfl, rfl⟩

/-- A flag without a value lays what it says over the settings. -/
theorem Key.plain
    {set : Args → Except String Args} (which : Key)
    (sets : which.flag = .plain set) (taken : set args = .ok next) :
    next = (which.layer "").override args := by
  cases which <;>
    simp only [Key.flag, Flag.plain.injEq, reduceCtorEq] at sets <;>
    rw [← sets, Except.ok.injEq] at taken <;>
    exact taken.symm

/-- So does a flag with a value. -/
theorem Key.value
    {set : String → Args → Except String Args} (which : Key)
    (sets : which.flag = .value set) (taken : set given args = .ok next) :
    next = (which.layer given).override args := by
  cases which <;>
    simp only [Key.flag, Flag.value.injEq, reduceCtorEq] at sets
  case port =>
    rw [← sets] at taken
    rcases map_named_eq_ok taken with ⟨port, isPort, same⟩
    rw [Key.layer, isPort]
    exact same.symm
  case mac =>
    rw [← sets] at taken
    rcases map_named_eq_ok taken with ⟨mac, isMac, same⟩
    rw [Key.layer, isMac]
    exact same.symm
  case logLevel =>
    rw [← sets] at taken
    rcases map_named_eq_ok taken with ⟨level, isLevel, same⟩
    rw [Key.layer, isLevel]
    exact same.symm
  all_goals
    rw [← sets, Except.ok.injEq] at taken
    exact taken.symm

theorem ofFlag_key
    {which : Key} (isKey : key arg = some which) (given : String) :
    ofFlag (arg, given) = which.layer given := by
  rw [ofFlag, isKey]
  rfl

theorem flag_plain
    {set : Args → Except String Args}
    (found : flag arg = some (.plain set))
    (taken : set args = .ok next) :
    next = (ofFlag (arg, "")).override args := by
  rcases Option.map_eq_some_iff.mp found with ⟨which, isKey, sets⟩
  rw [ofFlag_key isKey]
  exact which.plain sets taken

theorem flag_value
    {set : String → Args → Except String Args}
    (found : flag arg = some (.value set))
    (taken : set given args = .ok next) :
    next = (ofFlag (arg, given)).override args := by
  rcases Option.map_eq_some_iff.mp found with ⟨which, isKey, sets⟩
  rw [ofFlag_key isKey]
  exact which.value sets taken

/-- The settings of a command line are its layers. -/
theorem ofFlags_of_parse
    {line : List String}
    (parsed : parse flag .empty line = .ok (.run args)) :
    args = ofFlags line :=
  (parse_eq_run_iff.mp parsed).layers
    (fun _ _ _ _ found taken => flag_plain found taken)
    (fun _ _ _ _ _ found taken => flag_value found taken)

/-- What is filled is given or read, unless there is a complaint. -/
theorem fill_eq {α : Type}
    (given : Option α) (name : String) (found : Option String)
    (read : String → Except String α) :
    fill given name found read =
      match complaint given name found read with
      | some message => .error message
      | none =>
          .ok
            (given.or (found.bind fun text => (read text).toOption)) := by
  cases given with
  | some value => cases found <;> rfl
  | none =>
      cases found with
      | none => rfl
      | some text =>
          rw [fill, complaint]
          cases result : read text with
          | error message => rfl
          | ok value =>
              rw [Option.bind_some, result]
              rfl

/-- The first complaint is the error; without one the layers are merged. -/
theorem resolve_eq (args : Args) (env : String → Option String) :
    resolve args env =
      match (complaints args env).head? with
      | some message => .error message
      | none => .ok (args.override (ofEnvironment env)) := by
  rw [resolve, complaints]
  simp only [fill_eq, bind, Except.bind]
  cases complaint args.port "OPENAIRPLAY2_PORT"
    (lookup env "OPENAIRPLAY2_PORT") portValue with
  | some message => rfl
  | none =>
    cases complaint args.mac "OPENAIRPLAY2_MAC"
      (lookup env "OPENAIRPLAY2_MAC") macValue with
    | some message => rfl
    | none =>
      cases complaint args.avahi "OPENAIRPLAY2_AVAHI"
        (lookup env "OPENAIRPLAY2_AVAHI") onOffValue with
      | some message => rfl
      | none =>
        cases complaint args.audio "OPENAIRPLAY2_AUDIO"
          (lookup env "OPENAIRPLAY2_AUDIO") onOffValue with
        | some message => rfl
        | none =>
          cases complaint args.logLevel "OPENAIRPLAY2_LOG_LEVEL"
            (lookup env "OPENAIRPLAY2_LOG_LEVEL") logLevelValue with
          | some message => rfl
          | none =>
            simp only [List.reduceOption, List.filterMap_cons, id,
              List.filterMap_nil, List.head?_nil, pure, Except.pure,
              Args.override, ofEnvironment, Option.or_assoc]

/--
A command line that is read, with an environment, gives each setting that its
last flag for it says, else that its variable says.  The error is about the
first variable that cannot be read and that no flag overrides.
-/
theorem resolve_of_line
    {line : List String}
    (parsed : parse flag .empty line = .ok (.run args))
    (env : String → Option String) :
    resolve args env =
      match (complaints (ofFlags line) env).head? with
      | some message => .error message
      | none => .ok ((ofFlags line).override (ofEnvironment env)) := by
  rw [resolve_eq, ofFlags_of_parse parsed]

/-- What is in effect is laid over the environment. -/
theorem config_of_resolve
    {line : List String} {env : String → Option String}
    {config : Args}
    (parsed : parse flag .empty line = .ok (.run args))
    (resolved : resolve args env = .ok config) :
    (complaints (ofFlags line) env).head? = none ∧
      config = (ofFlags line).override (ofEnvironment env) := by
  rw [resolve_of_line parsed] at resolved
  cases quiet : (complaints (ofFlags line) env).head? with
  | some message =>
      rw [quiet] at resolved
      cases resolved
  | none =>
      rw [quiet] at resolved
      exact ⟨rfl, (Except.ok.inj resolved).symm⟩

/-! ## The password -/

theorem key_eq_password_iff :
    key arg = some .password ↔ arg = "--password" := by
  constructor
  · intro isKey
    unfold key at isKey
    split at isKey <;> first | rfl | cases isKey
  · rintro rfl
    rfl

theorem key_eq_pincode_iff :
    key arg = some .pincode ↔ arg = "--pincode" := by
  constructor
  · intro isKey
    unfold key at isKey
    split at isKey <;> first | rfl | cases isKey
  · rintro rfl
    rfl

theorem password_ofFlag (item : String × String) :
    (ofFlag item).password = none ↔
      item.1 ≠ "--password" ∧ item.1 ≠ "--pincode" := by
  rw [ne_eq, ne_eq, ← key_eq_password_iff, ← key_eq_pincode_iff, ofFlag]
  cases key item.1 with
  | none => simp [Args.empty]
  | some which => cases which <;> simp [Key.layer, Args.empty]

theorem password_ofFlags (line : List String) :
    (ofFlags line).password = none ↔
      ∀ item ∈ items flag line,
        item.1 ≠ "--password" ∧ item.1 ≠ "--pincode" := by
  have last :=
    @foldl_layers _ _ _ Args.override ofFlag Args.password
      (fun _ _ => rfl) (items flag line) .empty
  have none : Args.empty.password = none := rfl
  rw [none, Option.or_none] at last
  rw [ofFlags, last, List.getLast?_eq_none_iff, List.filterMap_eq_nil_iff]
  simp only [password_ofFlag]

/--
The receiver is open only where no flag and neither of the two variables,
the present one and its former name, asks for a password.
-/
theorem open_iff
    {line : List String} {env : String → Option String}
    {config : Args}
    (parsed : parse flag .empty line = .ok (.run args))
    (resolved : resolve args env = .ok config) :
    config.password = none ↔
      (∀ item ∈ items flag line,
          item.1 ≠ "--password" ∧ item.1 ≠ "--pincode") ∧
        lookup env "OPENAIRPLAY2_PASSWORD" = none ∧
          lookup env "OPENAIRPLAY2_PINCODE" = none := by
  rw [(config_of_resolve parsed resolved).2, ← password_ofFlags]
  show (ofFlags line).password.or
      ((lookup env "OPENAIRPLAY2_PASSWORD").or
        (lookup env "OPENAIRPLAY2_PINCODE")) = none ↔ _
  rw [Option.or_eq_none_iff, Option.or_eq_none_iff]

/-! ## Audio -/

theorem key_eq_alsaDevice_iff :
    key arg = some .alsaDevice ↔ arg = "--alsa-device" := by
  constructor
  · intro isKey
    unfold key at isKey
    split at isKey <;> first | rfl | cases isKey
  · rintro rfl
    rfl

theorem key_eq_noAudio_iff :
    key arg = some .noAudio ↔ arg = "--no-audio" := by
  constructor
  · intro isKey
    unfold key at isKey
    split at isKey <;> first | rfl | cases isKey
  · rintro rfl
    rfl

/-- The flag of these that comes last. -/
def lastAudio (line : List String) : Option String :=
  ((items flag line).filterMap fun item =>
    if item.1 = "--alsa-device" ∨ item.1 = "--no-audio" then some item.1
    else none).getLast?

theorem audio_ofFlag (item : String × String) :
    (ofFlag item).audio =
      (if item.1 = "--alsa-device" ∨ item.1 = "--no-audio" then
          some item.1
        else none).map fun name => name == "--alsa-device" := by
  rw [ofFlag]
  by_cases device : item.1 = "--alsa-device"
  · rw [if_pos (Or.inl device), key_eq_alsaDevice_iff.mpr device, device]
    rfl
  · by_cases noAudio : item.1 = "--no-audio"
    · rw [if_pos (Or.inr noAudio), key_eq_noAudio_iff.mpr noAudio, noAudio]
      rfl
    · rw [if_neg (by simp [device, noAudio])]
      have notDevice := mt key_eq_alsaDevice_iff.mp device
      have notNoAudio := mt key_eq_noAudio_iff.mp noAudio
      cases isKey : key item.1 with
      | none => rfl
      | some which =>
          rw [isKey] at notDevice notNoAudio
          cases which
          case alsaDevice => exact absurd rfl notDevice
          case noAudio => exact absurd rfl notNoAudio
          all_goals rfl

theorem audio_ofFlags (line : List String) :
    (ofFlags line).audio =
      (lastAudio line).map fun name => name == "--alsa-device" := by
  have last :=
    @foldl_layers _ _ _ Args.override ofFlag Args.audio
      (fun _ _ => rfl) (items flag line) .empty
  have none : Args.empty.audio = none := rfl
  rw [none, Option.or_none] at last
  rw [ofFlags, last, lastAudio, ← List.getLast?_map, List.map_filterMap]
  simp only [audio_ofFlag]

theorem lastAudio_cases (line : List String) :
    lastAudio line = none ∨ lastAudio line = some "--alsa-device" ∨
      lastAudio line = some "--no-audio" := by
  cases last : lastAudio line with
  | none => exact Or.inl rfl
  | some name =>
      have there := List.mem_of_getLast? last
      rw [List.mem_filterMap] at there
      rcases there with ⟨item, _, isName⟩
      split at isName
      · next either =>
          rw [Option.some.injEq] at isName
          rw [← isName]
          right
          exact either.imp (congrArg some) (congrArg some)
      · cases isName

theorem audio_complaint
    {env : String → Option String}
    (quiet : (complaints args env).head? = none)
    (unset : args.audio = none) {text : String}
    (found : lookup env "OPENAIRPLAY2_AUDIO" = some text) :
    ∃ value, onOffValue text = .ok value := by
  rw [List.head?_eq_none_iff, complaints, List.reduceOption,
    List.filterMap_eq_nil_iff] at quiet
  have none :=
    quiet
      (complaint args.audio "OPENAIRPLAY2_AUDIO"
        (lookup env "OPENAIRPLAY2_AUDIO") onOffValue)
      (by simp only [List.mem_cons, true_or, or_true])
  rw [id, unset, found, complaint] at none
  cases result : onOffValue text with
  | error message =>
      rw [result] at none
      cases none
  | ok value => exact ⟨value, rfl⟩

theorem onOffValue_eq_off_iff {text : String} {value : Bool}
    (isOk : onOffValue text = .ok value) :
    value = false ↔ text = "off" := by
  rw [onOffValue] at isOk
  split at isOk
  · next on =>
      cases isOk
      rw [on]
      decide
  · split at isOk
    · next off =>
        cases isOk
        exact iff_of_true rfl off
    · cases isOk

/--
The receiver is silent where `--no-audio` is the last flag about audio, or
where there is no such flag and the variable is off.
-/
theorem silent_iff
    {line : List String} {env : String → Option String}
    {config : Args}
    (parsed : parse flag .empty line = .ok (.run args))
    (resolved : resolve args env = .ok config) :
    effectiveDevice config = none ↔
      lastAudio line = some "--no-audio" ∨
        lastAudio line = none ∧
          lookup env "OPENAIRPLAY2_AUDIO" = some "off" := by
  rcases config_of_resolve parsed resolved with ⟨quiet, isConfig⟩
  have audio :
      config.audio =
        ((lastAudio line).map fun name => name == "--alsa-device").or
          ((lookup env "OPENAIRPLAY2_AUDIO").bind fun text =>
            (onOffValue text).toOption) := by
    rw [isConfig, ← audio_ofFlags]
    rfl
  rw [effectiveDevice, audio]
  rcases lastAudio_cases line with unset | device | noAudio
  · have given : (ofFlags line).audio = none := by
      rw [audio_ofFlags, unset]
      rfl
    rw [unset]
    cases found : lookup env "OPENAIRPLAY2_AUDIO" with
    | none => simp
    | some text =>
        rcases audio_complaint quiet given found with ⟨value, isOk⟩
        have off := onOffValue_eq_off_iff isOk
        rw [Option.bind_some, isOk]
        cases value with
        | true => simpa [Except.toOption] using off
        | false => simpa [Except.toOption] using off
  · rw [device]
    simp
  · rw [noAudio]
    simp

end Layers

/-! ## A kitchen -/

/-- The device that is named turns audio on again. -/
def kitchenLine : List String :=
  ["--name", "Kitchen", "--no-audio", "--alsa-device", "hw:1"]

/-- Audio is off, and the password has its former name. -/
def kitchenEnv (name : String) : Option String :=
  if name = "OPENAIRPLAY2_PINCODE" then some "1234"
  else if name = "OPENAIRPLAY2_AUDIO" then some "off"
  else none

def kitchenArgs : Args :=
  { Args.empty with
    name := some "Kitchen"
    audio := some true
    alsaDevice := some "hw:1" }

theorem kitchen_parsed :
    parse flag .empty kitchenLine = .ok (.run kitchenArgs) := by
  decide +kernel

theorem kitchen_resolved :
    resolve kitchenArgs kitchenEnv =
      .ok { kitchenArgs with password := some "1234" } := by
  decide +kernel

theorem resolve_of_line_kitchen :
    resolve kitchenArgs kitchenEnv =
      match (complaints (ofFlags kitchenLine) kitchenEnv).head? with
      | some message => .error message
      | none =>
          .ok
            ((ofFlags kitchenLine).override (ofEnvironment kitchenEnv)) :=
  resolve_of_line kitchen_parsed kitchenEnv

theorem open_iff_kitchen :
    some "1234" = none ↔
      (∀ item ∈ items flag kitchenLine,
          item.1 ≠ "--password" ∧ item.1 ≠ "--pincode") ∧
        lookup kitchenEnv "OPENAIRPLAY2_PASSWORD" = none ∧
          lookup kitchenEnv "OPENAIRPLAY2_PINCODE" = none :=
  open_iff kitchen_parsed kitchen_resolved

theorem silent_iff_kitchen :
    some "hw:1" = none ↔
      lastAudio kitchenLine = some "--no-audio" ∨
        lastAudio kitchenLine = none ∧
          lookup kitchenEnv "OPENAIRPLAY2_AUDIO" = some "off" :=
  silent_iff kitchen_parsed kitchen_resolved

/-! ## The mixer -/

theorem dropInfix?_card (id : List Char) :
    ("hw:CARD=".toList ++ id).dropInfix? ('C' :: "ARD=".toList) =
      some ("hw:".toList, id) := by
  rw [dropInfix?_iff]
  refine ⟨rfl, ?_⟩
  rintro shorter ⟨rest, same⟩
  change
    shorter ++ ('C' :: "ARD=".toList) ++ rest =
      'h' :: 'w' :: ':' :: 'C' :: ("ARD=".toList ++ id) at same
  -- The mark does not begin at one of the first three characters.
  match shorter with
  | [] => simp at same
  | [_] => simp at same
  | [_, _] => simp at same
  | _ :: _ :: _ :: _ => exact Nat.le_add_left 3 _

/-- A card id names its card. -/
theorem cardIdOf_hw
    {device id : String} (isId : cardIdOf device = some id) :
    cardIdOf ("hw:CARD=" ++ id) = some id := by
  rw [cardIdOf, Option.bind_eq_some_iff] at isId
  rcases isId with ⟨after, isAfter, isId⟩
  dsimp only at isId
  split at isId
  · cases isId
  · next present =>
      rw [Option.some.injEq] at isId
      set chars := after.takeWhile fun char => char != ',' with charsIs
      have toList : id.toList = chars := by
        rw [← isId, String.toList_ofList]
      have apart : 'C' ∉ "ARD=".toList := by decide
      have unmarked : ¬ 'C' :: "ARD=".toList <:+: chars := by
        intro inside
        cases found : device.toList.dropInfix? ('C' :: "ARD=".toList) with
        | none =>
            rw [Marks.cut_none found] at isAfter
            cases isAfter
        | some parts =>
            rcases parts with ⟨front, behind⟩
            rw [Marks.cut_some found, List.getElem?_cons_succ,
              ← List.head?_eq_getElem?, Marks.head?_cut apart] at isAfter
            rcases isAfter with ⟨_, _, unmarked, _⟩
            exact unmarked
              (inside.trans (List.takeWhile_prefix _).isInfix)
      have again :
          (Marks.cut 'C' "ARD=".toList ("hw:CARD=" ++ id).toList)[1]? =
            some chars := by
        rw [String.toList_append, toList,
          Marks.cut_some (dropInfix?_card chars),
          List.getElem?_cons_succ, ← List.head?_eq_getElem?,
          Marks.head?_cut apart]
        exact ⟨[], (List.append_nil _).symm, unmarked, Or.inl rfl⟩
      have whole : chars.takeWhile (fun char => char != ',') = chars := by
        rw [List.takeWhile_eq_self_iff]
        intro char there
        rw [charsIs] at there
        exact
          @List.mem_takeWhile_imp _ (fun char => char != ',') after char
            there
      rw [cardIdOf, again, Option.bind_some, whole]
      dsimp only
      rw [if_neg present, ← isId]

/-- Without a device of its own the mixer is on the card that is played to. -/
theorem mixer_follows_card
    {args : Args} {control device id : String}
    (mixer : args.mixer = some control)
    (noDevice : args.mixerDevice = none)
    (plays : effectiveDevice args = some device)
    (card : cardIdOf device = some id) :
    ∃ mixerDevice,
      mixerConfig args = .ok (some (mixerDevice, control)) ∧
        cardIdOf mixerDevice = some id := by
  refine ⟨"hw:CARD=" ++ id, ?_, cardIdOf_hw card⟩
  rw [mixerConfig, mixer, noDevice, plays, defaultMixerDevice,
    Option.bind_some, card]
  rfl

/-- A sound card with a control of its own. -/
def cardArgs : Args :=
  { Args.empty with
    alsaDevice := some "plughw:CARD=S2,DEV=0"
    mixer := some "PCM" }

theorem cardIdOf_cardArgs :
    cardIdOf "plughw:CARD=S2,DEV=0" = some "S2" := by
  decide +kernel

theorem mixer_follows_card_cardArgs :
    ∃ mixerDevice,
      mixerConfig cardArgs = .ok (some (mixerDevice, "PCM")) ∧
        cardIdOf mixerDevice = some "S2" :=
  mixer_follows_card rfl rfl rfl cardIdOf_cardArgs

/-! ## The name -/

/-- A part of a name: a text as it is, or the name of the host. -/
inductive Part where
  | text (chars : List Char)
  | host

/-- How a part is written: percent signs are doubled. -/
def Part.written : Part → List Char
  | .text chars =>
      chars.flatMap fun char => if char = '%' then ['%', '%'] else [char]
  | .host => ['%', 'h']

def Part.meant (hostname : List Char) : Part → List Char
  | .text chars => chars
  | .host => hostname

theorem substituteChars_plain
    {char : Char} (plain : char ≠ '%') (hostname rest : List Char) :
    substituteChars hostname (char :: rest) =
      char :: substituteChars hostname rest := by
  rw [substituteChars]
  · intro rest same
    exact absurd same plain
  · intro rest same
    exact absurd same plain
  · intro other rest same
    exact absurd same plain
  · intro same
    exact absurd same plain

theorem substituteChars_text (hostname chars rest : List Char) :
    substituteChars hostname ((Part.text chars).written ++ rest) =
      chars ++ substituteChars hostname rest := by
  induction chars with
  | nil => rfl
  | cons char chars induction =>
      rw [Part.written, List.flatMap_cons, List.append_assoc]
      by_cases percent : char = '%'
      · rw [if_pos percent, percent]
        show '%' :: substituteChars hostname _ = _
        rw [List.cons_append, ← induction]
        rfl
      · rw [if_neg percent, List.singleton_append,
          substituteChars_plain percent, List.cons_append, ← induction]
        rfl

/--
Any name can be written, with the name of the host wherever it should be;
what stands in the host's own name is not looked at.
-/
theorem substitute_parts (hostname : String) (parts : List Part) :
    substitute (String.ofList (parts.flatMap Part.written)) hostname =
      String.ofList (parts.flatMap (Part.meant hostname.toList)) := by
  rw [substitute, String.toList_ofList]
  congr 1
  induction parts with
  | nil => rfl
  | cons part rest induction =>
      rw [List.flatMap_cons, List.flatMap_cons, ← induction]
      cases part with
      | text chars => exact substituteChars_text _ _ _
      | host => rfl

end OpenAirplay2.Receiver.Options
