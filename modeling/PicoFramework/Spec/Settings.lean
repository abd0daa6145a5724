import PicoFramework.Lib.Debounce
import PicoFramework.Spec.HomeLed
import PicoFramework.Spec.PersistentConfig

/-! `settings.c` of the `home_led` application: what survives a power cut. The console's commands
for the strings are calls of `config_set_string`. -/

namespace Pico

section keys

def KEY_SSID : CString := cstr "wifi_ssid"
def KEY_PASSWORD : CString := cstr "wifi_password"
def KEY_HOSTNAME : CString := cstr "wifi_hostname"
def KEY_BROKER : CString := cstr "mqtt_broker"
def KEY_PORT : CString := cstr "mqtt_port"
def KEY_MQTT_USER : CString := cstr "mqtt_user"
def KEY_MQTT_PASS : CString := cstr "mqtt_pass"
def KEY_DEVICE_ID : CString := cstr "device_id"
def KEY_HA_PREFIX : CString := cstr "ha_prefix"

def KEY_LIGHT_ON : CString := cstr "light_on"
def KEY_LIGHT_BRIGHTNESS : CString := cstr "light_bri"
def KEY_LIGHT_RGB : CString := cstr "light_rgb"
def KEY_LIGHT_MIREDS : CString := cstr "light_ct"
def KEY_LIGHT_MODE : CString := cstr "light_mode"
def KEY_LIGHT_EFFECT : CString := cstr "light_effect"
def KEY_RANGE_FIRST : CString := cstr "led_first"
def KEY_RANGE_LAST : CString := cstr "led_last"

end keys

/-- `sizeof(app->config_buffer)`. -/
def CONFIG_BUFFER_SIZE : ℕ := 1024

/-- `app_t`, as far as its settings go. -/
structure SettingsApp where
  /-- `APP_LED_COUNT`. -/
  ledCount : UInt16
  light : Light
  range : LedRange
  config : PersistentConfig
  stored : StoredSettings
deriving DecidableEq

/-- What a buffer of `size` bytes holds as a string after `config_get_string`. -/
def storedString (store : ConfigStore) (key : CString) (size : ℕ) (fallback : CString) : CString :=
  let got := configGetString store (some key) (some (List.replicate size 0)) size (some fallback)
  ⟨(got.2.getD []).takeWhile (· ≠ 0), fun h => by simpa using List.mem_takeWhile_imp h⟩

def loadStrings (store : ConfigStore) : StoredSettings where
  ssid := storedString store KEY_SSID (WIFI_SSID_MAX_LENGTH + 1) (cstr "")
  password := storedString store KEY_PASSWORD (WIFI_PASSWORD_MAX_LENGTH + 1) (cstr "")
  hostname := storedString store KEY_HOSTNAME 33 (cstr "home-led")
  brokerHost := storedString store KEY_BROKER 128 (cstr "")
  brokerPort := storedString store KEY_PORT 8 (cstr "1883")
  mqttUser := storedString store KEY_MQTT_USER 64 (cstr "")
  mqttPass := storedString store KEY_MQTT_PASS 64 (cstr "")
  deviceId := storedString store KEY_DEVICE_ID (HA_DEVICE_ID_MAX_LENGTH + 1) (cstr "home-led")
  haPrefix := storedString store KEY_HA_PREFIX 32 (cstr "homeassistant")

/-- `settings_load`; the result of the load is not looked at. -/
def settingsLoad (build : FlashBuild) (mem : Lib.Nor.Mem) (buffer : Bytes) (ledCount : UInt16) :
    Option SettingsApp :=
  (persistentConfigLoad build mem (some buffer) buffer.length).2.map fun config =>
    let word (key : CString) (fallback : UInt32) : UInt32 :=
      (configGetU32 config.store (some key) fallback).2
    { ledCount := ledCount
      stored := loadStrings config.store
      light := loadLight (word KEY_LIGHT_BRIGHTNESS LIGHT_DEFAULT_BRIGHTNESS.toUInt32)
        (word KEY_LIGHT_RGB 0xFFFFFF)
      range := loadRange ledCount (word KEY_RANGE_FIRST 1)
        (word KEY_RANGE_LAST ledCount.toUInt32)
      config := config }

def rgbWord (color : Ws2812Color) : UInt32 :=
  (color.r.toUInt32 <<< 16) ||| (color.g.toUInt32 <<< 8) ||| color.b.toUInt32

/-- The eight values in the order in which they are set. -/
def settingsWords (current : LightSettings) (range : LedRange) : List (CString × UInt32) :=
  [(KEY_LIGHT_ON, if current.on then 1 else 0),
   (KEY_LIGHT_BRIGHTNESS, current.brightness.toUInt32),
   (KEY_LIGHT_RGB, rgbWord current.color),
   (KEY_LIGHT_MIREDS, current.mireds.toUInt32),
   (KEY_LIGHT_MODE, current.colorMode),
   (KEY_LIGHT_EFFECT, current.effect),
   (KEY_RANGE_FIRST, range.first.toUInt32),
   (KEY_RANGE_LAST, range.last.toUInt32)]

/-- Each value set in its turn; what `config_set_u32` answers is not looked at. -/
def setWords (store : ConfigStore) (words : List (CString × UInt32)) : ConfigStore :=
  words.foldl (fun store word => (configSetU32 store (some word.1) word.2).2) store

def settingsStore (build : FlashBuild) (app : SettingsApp) : Flash (Bool × SettingsApp) := do
  let store := setWords app.config.store (settingsWords app.light.capture app.range)
  let (result, config) ← persistentConfigSave build { app.config with store := store }
  return (decide (result = .ok), { app with config := config })

end Pico

/-! The part of `main.c` of the `home_led` application that keeps the settings, and `cmd_save` of
`settings.c`. What a call of `settings_store` answers is an answer of the flash. -/

namespace Pico

open Lib.Debounce

def SAVE_QUIET_MS : UInt32 := 10000

/-- `app_t`, as far as the loop saves. -/
structure Saver where
  light : Light
  range : LedRange
  savedGeneration : UInt32
  savedRangeGeneration : UInt32
  seenGeneration : UInt32
  seenRangeGeneration : UInt32
  lastChangeMs : UInt32
  /-- What the last `settings_store` that answered true passed to `config_set_u32`, whose answers it
  does not look at; nothing before there was one since the board started. -/
  kept : Option (List (CString × UInt32))
  /-- What the loop has noticed and tried, the latest first, and when it last went round. -/
  log : List Entry
  passMs : ℕ
  /-- The setters called since the loop last went round, and since the settings were stored. -/
  unseen : ℕ
  unsaved : ℕ

namespace Saver

/-- `settings_load` has been called. -/
def start (light : Light) (range : LedRange) (startedMs : ℕ) : Saver where
  light := light
  range := range
  savedGeneration := light.generation
  savedRangeGeneration := range.generation
  seenGeneration := light.generation
  seenRangeGeneration := range.generation
  lastChangeMs := UInt32.ofNat startedMs
  kept := none
  log := []
  passMs := startedMs
  unseen := 0
  unsaved := 0

/-- A call of `settings_store` that answers true, and what follows it. -/
def stored (app : Saver) : Saver :=
  { app with
    savedGeneration := app.light.generation
    savedRangeGeneration := app.range.generation
    kept := some (settingsWords app.light.capture app.range)
    unsaved := 0 }

def setLight (light : Light) (app : Saver) : Saver :=
  { app with light := light, unseen := app.unseen + 1, unsaved := app.unsaved + 1 }

def setRange (range : LedRange) (app : Saver) : Saver :=
  { app with range := range, unseen := app.unseen + 1, unsaved := app.unsaved + 1 }

def cmdSave (ok : Bool) (app : Saver) : Saver := if ok then app.stored else app

def noteChange (nowMs : ℕ) (app : Saver) : Saver :=
  if app.light.generation ≠ app.seenGeneration ∨ app.range.generation ≠ app.seenRangeGeneration then
    { app with
      seenGeneration := app.light.generation
      seenRangeGeneration := app.range.generation
      lastChangeMs := UInt32.ofNat nowMs
      log := .noticed nowMs :: app.log }
  else app

def saveWhenQuiet (nowMs : ℕ) (ok : Bool) (app : Saver) : Saver :=
  if (app.light.generation ≠ app.savedGeneration ∨
      app.range.generation ≠ app.savedRangeGeneration) ∧
      UInt32.ofNat nowMs - app.lastChangeMs ≥ SAVE_QUIET_MS then
    if ok then { app.stored with log := .written nowMs :: app.log }
    else { app with lastChangeMs := UInt32.ofNat nowMs, log := .failed nowMs :: app.log }
  else app

/-- The main loop behind its polls. The clock it reads has 32 bits. -/
def mainLoop (nowMs : ℕ) (ok : Bool) (app : Saver) : Saver :=
  saveWhenQuiet nowMs ok (noteChange nowMs
    { app with light := app.light.tick (UInt32.ofNat nowMs), passMs := nowMs, unseen := 0 })

end Saver

/-- A setter that a command of the console or of Home Assistant calls, the `save` command, or a
pass of the main loop. -/
inductive SaverMove where
  | light (move : LightMove)
  | range (move : RangeMove)
  | save (ok : Bool)
  | loop (nowMs : ℕ) (ok : Bool)

def Saver.step (app : Saver) : SaverMove → Saver
  | .light move => app.setLight (app.light.step move)
  | .range move => app.setRange (app.range.step move)
  | .save ok => app.cmdSave ok
  | .loop nowMs ok => app.mainLoop nowMs ok

end Pico
