import CubieBle.Machine.Bytes
import CubieBle.Machine.Run
import CubieBle.ModulePer.Config

/-! # Settings after a restart

Every command stores what it sets under the key from which it is loaded. The one
exception is the UUID of the service, which is overwritten in memory when the UUID of the
ADC characteristic is set.
-/

namespace CubieBle.ModulePer

open Machine Storage

/-! ## Keys -/

def Setting.all : List Setting :=
  [.advState, .advInterval, .name, .baud, .connInterval, .userData, .uuid .dataSrv, .uuid .tx,
    .uuid .rx, .uuid .drvSrv, .uuid .adc, .uuid .pwm, .rssiMode, .rts]

theorem Setting.find_key (setting : Setting) :
    Setting.all.find? (fun other => other.key = setting.key) = some setting := by
  cases setting with
  | uuid which => cases which <;> decide
  | _ => decide

/-- No two settings share a key. -/
theorem Setting.key_injective : Function.Injective Setting.key := by
  intro first second hkey
  apply Option.some.inj
  rw [← Setting.find_key first, ← Setting.find_key second, hkey]

/-- What is loaded for a setting depends on what is stored under its key. -/
theorem value_load_congr (stack : Nat → UInt8) (config : Config) {nvram other : Nvram}
    {setting : Setting} (hkey : nvram setting.key = other setting.key) :
    (loadAppCfgFromNv stack nvram config).value setting =
      (loadAppCfgFromNv stack other config).value setting := by
  have hget (maxLen : Nat) : nvramConfigGet setting.key maxLen nvram =
      nvramConfigGet setting.key maxLen other := by
    rw [nvramConfigGet, nvramConfigGet, hkey]
  cases setting <;>
    simp only [Setting.key] at hget <;>
    simp only [Config.value, loadAppCfgFromNv, loadU8, loadU16, loadName, loadUserData,
      loadUuidCfgFromNv, hget]

/-! ## Reading back -/

theorem loadU8_set (stack : Nat → UInt8) (key : String) (nvram : Nvram) (value old : UInt8) :
    loadU8 stack key (nvramConfigSet key [value] nvram) old = value := by
  rw [loadU8, nvramConfigGet_nvramConfigSet]
  rfl

theorem bufWord_wordBytes (stack : Nat → UInt8) (value : UInt16) :
    bufWord stack (wordBytes value) = value :=
  uint16_of_bytes value

theorem loadU16_set (stack : Nat → UInt8) (key : String) (nvram : Nvram) (value old : UInt16) :
    loadU16 stack key (nvramConfigSet key (wordBytes value) nvram) old = value := by
  rw [loadU16, nvramConfigGet_nvramConfigSet]
  exact bufWord_wordBytes stack value

theorem loadUuid_set (stack : Nat → UInt8) (key : String) (nvram : Nvram) (value : UInt16)
    (old : Vector UInt8 16) :
    loadUuidCfgFromNv stack key (nvramConfigSet key (wordBytes value) nvram) old =
      writeUuid old value := by
  rw [loadUuidCfgFromNv, nvramConfigGet_nvramConfigSet]
  exact congrArg (writeUuid old) (bufWord_wordBytes stack value)

theorem bufByte_toList (stack : Nat → UInt8) {n : Nat} (data : Vector UInt8 n) {i : Nat}
    (hlt : i < n) : bufByte stack (data.toList.take n) i = data.get ⟨i, hlt⟩ := by
  have hlength : data.toList.length = n := data.length_toList
  rw [bufByte, List.take_of_length_le hlength.le, List.getD_eq_getElem?_getD,
    List.getElem?_eq_getElem (by rw [hlength]; exact hlt), Option.getD_some]
  rfl

theorem loadUserData_set (stack : Nat → UInt8) (nvram : Nvram) (data old : Vector UInt8 6) :
    loadUserData stack (nvramConfigSet "ADV_USER_DATA" data.toList nvram) old = data := by
  rw [loadUserData, nvramConfigGet_nvramConfigSet]
  ext i hi
  dsimp only
  rw [Vector.getElem_ofFn, bufByte_toList stack data hi]
  rfl

theorem get_writeName (data : Vector UInt8 21) (text : Nat → UInt8) (len : UInt8) {i : Nat}
    (hlt : i < 21) :
    (writeName data text len).get ⟨i, hlt⟩ =
      if i = 20 then len else if i < len.toNat then text i else data.get ⟨i, hlt⟩ := by
  exact Vector.getElem_ofFn hlt

theorem take_writeName (data : Vector UInt8 21) (text : Nat → UInt8) {len : UInt8}
    (hlen : len.toNat ≤ 20) :
    (writeName data text len).toList.take len.toNat = (List.range len.toNat).map text := by
  apply List.ext_getElem
  · rw [List.length_take, Vector.length_toList, List.length_map, List.length_range]
    omega
  · intro i hi _
    rw [List.length_take] at hi
    have hlt : i < len.toNat := by omega
    rw [List.getElem_take, List.getElem_map, List.getElem_range]
    have hget := get_writeName data text len (show i < 21 by omega)
    rw [if_neg (by omega), if_pos hlt] at hget
    exact hget

/-- A name that was stored is loaded with its length. -/
theorem loadName_set (stack : Nat → UInt8) (nvram : Nvram) (data : Vector UInt8 21)
    (text : Nat → UInt8) {len : UInt8} (hlen : len.toNat ≤ 20) (old : Vector UInt8 21 × UInt8) :
    (loadName stack (nvramConfigSet "ADV_NAME" (writeName data text len).toList nvram) old).2 =
        len ∧
      (loadName stack (nvramConfigSet "ADV_NAME" (writeName data text len).toList nvram)
          old).1.toList.take len.toNat =
        (writeName data text len).toList.take len.toNat := by
  have hlast : bufByte stack ((writeName data text len).toList.take 21) 20 = len := by
    rw [bufByte_toList stack _ (by decide), get_writeName, if_pos rfl]
  rw [loadName, nvramConfigGet_nvramConfigSet]
  dsimp only [bleAdvNameDataMax]
  rw [hlast, if_neg (by rw [UInt8.lt_iff_toNat_lt]; exact Nat.not_lt.mpr hlen)]
  refine ⟨rfl, ?_⟩
  rw [take_writeName _ _ hlen, take_writeName _ _ hlen]
  apply List.map_congr_left
  intro i hi
  have hlt := List.mem_range.mp hi
  rw [bufByte_toList stack _ (show i < 21 by omega), get_writeName, if_neg (by omega),
    if_pos hlt]

/-! ## One command -/

/-- A setting may have changed in memory, its data is stored, and they belong together. -/
structure Written (app next : App) (setting : Setting) (data : List UInt8) : Prop where
  frame : ∀ other ≠ setting, next.config.value other = app.config.value other
  stored : next.nvram = nvramConfigSet setting.key data app.nvram
  loads : ∀ stack nvram,
    (loadAppCfgFromNv stack (nvramConfigSet setting.key data nvram) Config.default).value setting =
      next.config.value setting

/-- Either nothing happens to the settings, or one is written. -/
inductive Writes (app next : App) (setting : Setting) : Prop where
  | unchanged (hconfig : next.config = app.config) (hnvram : next.nvram = app.nvram)
  | written (data : List UInt8) (hwritten : Written app next setting data)

theorem Writes.survives {app next : App} {setting : Setting} (hwrites : Writes app next setting)
    (hsurvives : Survives app) : Survives next := by
  intro stack other
  cases hwrites with
  | unchanged hconfig hnvram =>
      rw [hconfig, hnvram]
      exact hsurvives stack other
  | written data hwritten =>
      rw [hwritten.stored]
      by_cases hother : other = setting
      · subst hother
        exact hwritten.loads stack app.nvram
      · rw [hwritten.frame other hother, ← hsurvives stack other]
        apply value_load_congr
        exact nvramConfigSet_of_ne (Setting.key_injective.ne hother) data app.nvram

theorem Writes.onlyNamed {app : App} {call : SetCall}
    (hwrites : Writes app (setCmd app call) call.command.setting) : OnlyNamed app call := by
  intro other hother
  cases hwrites with
  | unchanged hconfig hnvram => rw [hconfig, hnvram]; exact ⟨rfl, rfl⟩
  | written data hwritten =>
      refine ⟨hwritten.frame other hother, ?_⟩
      rw [hwritten.stored]
      exact nvramConfigSet_of_ne (Setting.key_injective.ne hother) data app.nvram

theorem value_bleExecAdvOp (advState : UInt8) (config : Config) :
    (bleExecAdvOp advState config).value = config.value := by
  unfold bleExecAdvOp
  split
  · rfl
  · split <;> rfl

/-- The shape of the commands that store what they set. -/
theorem writes_of_config (app : App) (setting : Setting) (data : List UInt8) (config : Config)
    (exitRssiMsgs : Nat) (answers : List Answer)
    (hframe : ∀ other ≠ setting, config.value other = app.config.value other)
    (hloads : ∀ stack nvram,
      (loadAppCfgFromNv stack (nvramConfigSet setting.key data nvram) Config.default).value
        setting = config.value setting) :
    Writes app
      { config := config
        nvram := nvramConfigSet setting.key data app.nvram
        answers := answers
        exitRssiMsgs := exitRssiMsgs } setting :=
  .written data ⟨hframe, rfl, hloads⟩

/-- The same for those that start the advertising again. -/
theorem writes_of_advertised (app : App) (setting : Setting) (data : List UInt8)
    (config : Config) (advState : UInt8) (answers : List Answer)
    (hframe : ∀ other ≠ setting, config.value other = app.config.value other)
    (hloads : ∀ stack nvram,
      (loadAppCfgFromNv stack (nvramConfigSet setting.key data nvram) Config.default).value
        setting = config.value setting) :
    Writes app
      { config := bleExecAdvOp advState config
        nvram := nvramConfigSet setting.key data app.nvram
        answers := answers
        exitRssiMsgs := app.exitRssiMsgs } setting := by
  apply writes_of_config
  · intro other hother
    rw [value_bleExecAdvOp, hframe other hother]
  · intro stack nvram
    rw [value_bleExecAdvOp, hloads]

theorem writes_atCmdAdvSet (para : List UInt8) (app : App) :
    Writes app (atCmdAdvSet para app) .advState := by
  unfold atCmdAdvSet
  dsimp only
  split
  · exact .unchanged rfl rfl
  · apply writes_of_config app .advState [lowByte para]
    · intro other hother
      have hvalue := congrFun (value_bleExecAdvOp (lowByte para) app.config) other
      cases other with
      | advState => exact absurd rfl hother
      | _ => exact hvalue
    · intro stack nvram
      exact congrArg (fun state => [state.toNat]) (loadU8_set stack _ nvram _ _)

theorem writes_atCmdAdvIntervalSet (para : List UInt8) (app : App) :
    Writes app (atCmdAdvIntervalSet para app) .advInterval := by
  unfold atCmdAdvIntervalSet
  dsimp only
  split
  · exact .unchanged rfl rfl
  · generalize UInt16.ofNat (advIntervalArray.getD (lowByte para).toNat 0 * 1000 / 625) = interval
    apply writes_of_advertised app .advInterval (wordBytes interval)
    · intro other hother
      cases other with
      | advInterval => exact absurd rfl hother
      | _ => rfl
    · intro stack nvram
      dsimp only [Config.value, loadAppCfgFromNv, Setting.key]
      rw [loadU16_set, loadU16_set]

theorem writes_atCmdAdvNameSet (para : List UInt8) (app : App) :
    Writes app (atCmdAdvNameSet para app) .name := by
  have hlen : (UInt8.ofNat (min para.length bleAdvNameDataMax)).toNat ≤ 20 :=
    (Nat.mod_le _ _).trans (Nat.min_le_right _ _)
  unfold atCmdAdvNameSet
  generalize UInt8.ofNat (min para.length bleAdvNameDataMax) = cpLen at hlen ⊢
  dsimp only
  apply writes_of_advertised app .name
    (writeName app.config.advNameData (fun i => para.getD i 0) cpLen).toList
  · intro other hother
    cases other with
    | name => exact absurd rfl hother
    | _ => simp only [Config.value]
  · intro stack nvram
    obtain ⟨hstored, htake⟩ := loadName_set stack nvram app.config.advNameData
      (fun i => para.getD i 0) hlen (Config.default.advNameData, Config.default.scanDataLen)
    dsimp only [Config.value, loadAppCfgFromNv, Setting.key]
    rw [hstored, htake]

theorem writes_atCmdAdvBaudrateSet (para : List UInt8) (app : App) :
    Writes app (atCmdAdvBaudrateSet para app) .baud := by
  unfold atCmdAdvBaudrateSet
  dsimp only
  split
  · exact .unchanged rfl rfl
  · apply writes_of_config app .baud [lowByte para]
    · intro other hother
      cases other with
      | baud => exact absurd rfl hother
      | _ => rfl
    · intro stack nvram
      exact congrArg (fun index => [index.toNat]) (loadU8_set stack _ nvram _ _)

theorem writes_atCmdConnIntervalSet (para : List UInt8) (app : App) :
    Writes app (atCmdConnIntervalSet para app) .connInterval := by
  unfold atCmdConnIntervalSet
  dsimp only
  split
  · exact .unchanged rfl rfl
  · generalize UInt16.ofNat (connIntervalArray.getD (lowByte para).toNat 0 * 100 / 125) = interval
    apply writes_of_config app .connInterval (wordBytes interval)
    · intro other hother
      cases other with
      | connInterval => exact absurd rfl hother
      | _ => rfl
    · intro stack nvram
      dsimp only [Config.value, loadAppCfgFromNv, Setting.key]
      rw [loadU16_set, loadU16_set]

theorem writes_atCmdAdvDataSet (uninit : Nat → UInt8) (para : List UInt8) (app : App) :
    Writes app (atCmdAdvDataSet uninit para app) .userData := by
  unfold atCmdAdvDataSet
  dsimp only
  generalize Vector.ofFn _ = advUserData
  apply writes_of_advertised app .userData advUserData.toList
  · intro other hother
    cases other with
    | userData => exact absurd rfl hother
    | _ => rfl
  · intro stack nvram
    dsimp only [Config.value, loadAppCfgFromNv, Setting.key]
    rw [loadUserData_set]

theorem writes_atCmdRssiSet (rssi : Int8) (sent : Bool) (para : List UInt8) (app : App) :
    Writes app (atCmdRssiSet rssi sent para app) .rssiMode := by
  have hwritten (value : UInt8) (msgs : Nat) (answers : List Answer) :
      Writes app
        { config := { app.config with rssiMode := value }
          nvram := nvramConfigSet "RSSI_MODE" [value] app.nvram
          answers := answers
          exitRssiMsgs := msgs } .rssiMode := by
    apply writes_of_config app .rssiMode [value]
    · intro other hother
      cases other with
      | rssiMode => exact absurd rfl hother
      | _ => rfl
    · intro stack nvram
      exact congrArg (fun mode => [mode.toNat]) (loadU8_set stack _ nvram _ _)
  unfold atCmdRssiSet
  dsimp only
  split
  · exact .unchanged rfl rfl
  split
  · exact hwritten 0 _ _
  split
  · exact hwritten 1 _ _
  · exact .unchanged rfl rfl

theorem writes_atCmdRtsFuncSet (para : List UInt8) (app : App) :
    Writes app (atCmdRtsFuncSet para app) .rts := by
  unfold atCmdRtsFuncSet
  dsimp only
  split
  · exact .unchanged rfl rfl
  · generalize (if lowByte para = 0 then (0 : UInt8) else 1) = enable
    apply writes_of_config app .rts [enable]
    · intro other hother
      cases other with
      | rts => exact absurd rfl hother
      | _ => rfl
    · intro stack nvram
      exact congrArg (fun enable => [enable.toNat]) (loadU8_set stack _ nvram _ _)

/-! ## UUIDs -/

theorem getElem_writeUuid (uuid : Vector UInt8 16) (val : UInt16) {i : Nat} (hi : i < 16) :
    (writeUuid uuid val)[i] =
      if i = 12 then val.toUInt8 else if i = 13 then (val >>> 8).toUInt8 else uuid[i] := by
  unfold writeUuid
  rw [Vector.getElem_set, Vector.getElem_set]
  simp only [eq_comm]

/-- Only the last UUID that was set matters. -/
theorem writeUuid_writeUuid (uuid : Vector UInt8 16) (first second : UInt16) :
    writeUuid (writeUuid uuid first) second = writeUuid uuid second := by
  ext i hi
  rw [getElem_writeUuid, getElem_writeUuid, getElem_writeUuid]
  split
  · rfl
  · split <;> rfl

theorem uuid16_writeUuid (uuid : Vector UInt8 16) (val : UInt16) :
    uuid16 (writeUuid uuid val) = val := by
  unfold uuid16
  rw [getElem_writeUuid, getElem_writeUuid, if_pos rfl, if_neg (by decide), if_pos rfl]
  exact uint16_of_bytes val

theorem writeUuid_uuid16 (uuid : Vector UInt8 16) : writeUuid uuid (uuid16 uuid) = uuid := by
  obtain ⟨hlow, hhigh⟩ := bytes_of_uint16 uuid[12] uuid[13]
  apply Vector.ext
  intro i hi
  rw [getElem_writeUuid]
  split
  next hi => subst hi; exact hlow
  next =>
    split
    next hi => subst hi; exact hhigh
    next => rfl

/-- Setting a UUID to what it is changes nothing, and nothing else does so. -/
theorem writeUuid_eq_self_iff (uuid : Vector UInt8 16) (val : UInt16) :
    writeUuid uuid val = uuid ↔ val = uuid16 uuid := by
  constructor
  · intro hsame
    rw [← hsame, uuid16_writeUuid]
  · rintro rfl
    exact writeUuid_uuid16 uuid

theorem toList_map_toNat_inj {first second : Vector UInt8 16}
    (hsame : first.toList.map UInt8.toNat = second.toList.map UInt8.toNat) : first = second := by
  apply Vector.toList_inj.mp
  exact List.map_injective_iff.mpr (fun _ _ => UInt8.toNat_inj.mp) hsame

/-- The UUIDs differ from their initialisers at most where they can be set. -/
theorem Survives.writeUuid_uuid {app : App} (hsurvives : Survives app) (which : Uuid)
    (val : UInt16) :
    writeUuid (app.config.uuid which) val = writeUuid (Config.default.uuid which) val := by
  have hloaded := toList_map_toNat_inj (hsurvives (fun _ => 0) (.uuid which))
  rw [← hloaded]
  dsimp only [loadAppCfgFromNv]
  unfold loadUuidCfgFromNv
  split
  · rfl
  · exact writeUuid_writeUuid _ _ _

theorem uuid_setUuid_self (config : Config) (which : Uuid) (val : UInt16) :
    (config.setUuid which val).uuid which = writeUuid (config.uuid which) val := by
  unfold Config.setUuid
  exact Function.update_self _ _ _

theorem uuid_setUuid_of_ne (config : Config) {which other : Uuid} (hother : other ≠ which)
    (val : UInt16) : (config.setUuid which val).uuid other = config.uuid other := by
  unfold Config.setUuid
  exact Function.update_of_ne hother _ _

theorem setUuid_eq_self {config : Config} {which : Uuid} {val : UInt16}
    (hval : val = uuid16 (config.uuid which)) : config.setUuid which val = config := by
  unfold Config.setUuid
  rw [(writeUuid_eq_self_iff _ _).mpr hval, Function.update_eq_self]

theorem value_setUuid_of_ne (config : Config) (which : Uuid) (val : UInt16) {other : Setting}
    (hother : other ≠ .uuid which) :
    (config.setUuid which val).value other = config.value other := by
  cases other with
  | uuid next =>
      have hne : next ≠ which := fun h => hother (congrArg Setting.uuid h)
      dsimp only [Config.value]
      rw [uuid_setUuid_of_ne config hne]
  | _ => rfl

theorem writes_uuidSet {app : App} (hsurvives : Survives app) (which : Uuid) (text : String)
    (para : List UInt8) : Writes app (uuidSet which which.key text para app) (.uuid which) := by
  unfold uuidSet
  split
  · exact .unchanged rfl rfl
  · apply writes_of_config app (.uuid which) (wordBytes (uuidVal para))
    · intro other hother
      exact value_setUuid_of_ne app.config which (uuidVal para) hother
    · intro stack nvram
      dsimp only [Config.value, loadAppCfgFromNv, Setting.key]
      rw [loadUuid_set, uuid_setUuid_self, hsurvives.writeUuid_uuid]

/-- If the service has the UUID already, the command for the ADC characteristic is like
the others. -/
theorem atCmdDrvAdcCharUuidSet_eq {app : App} {para : List UInt8}
    (hshared : isHexString para = true → uuidVal para = uuid16 (app.config.uuid .drvSrv)) :
    atCmdDrvAdcCharUuidSet para app = uuidSet .adc "ADC_UUID" "OK+CHAD" para app := by
  unfold atCmdDrvAdcCharUuidSet uuidSet
  cases hhex : isHexString para with
  | false => rfl
  | true =>
      have hdrv : uuidVal para =
          uuid16 ((app.config.setUuid .adc (uuidVal para)).uuid .drvSrv) := by
        rw [uuid_setUuid_of_ne _ (by decide)]
        exact hshared hhex
      rw [setUuid_eq_self hdrv]

/-- A command that leaves the UUID of the service alone keeps to the UUID it has. -/
theorem adcUuidShared_of_onlyNamed {app : App} {call : SetCall} (honly : OnlyNamed app call) :
    AdcUuidShared app call := by
  intro hcommand hhex
  have hset : (setCmd app call).config.uuid .drvSrv =
      writeUuid (app.config.uuid .drvSrv) (uuidVal call.para) := by
    unfold setCmd atCmdDrvAdcCharUuidSet
    rw [hcommand, hhex]
    exact (uuid_setUuid_self _ _ _).trans
      (congrArg (writeUuid · _) (uuid_setUuid_of_ne _ (by decide) _))
  have hvalue := toList_map_toNat_inj (honly (.uuid .drvSrv) (by rw [hcommand]; decide)).1
  rw [← writeUuid_eq_self_iff, ← hset, hvalue]

/-! ## All commands -/

theorem writes_setCmd {app : App} (hsurvives : Survives app) {call : SetCall}
    (hshared : AdcUuidShared app call) :
    Writes app (setCmd app call) call.command.setting := by
  unfold setCmd
  cases hcommand : call.command with
  | adst => exact writes_atCmdAdvSet _ _
  | adit => exact writes_atCmdAdvIntervalSet _ _
  | name => exact writes_atCmdAdvNameSet _ _
  | baud => exact writes_atCmdAdvBaudrateSet _ _
  | cnit => exact writes_atCmdConnIntervalSet _ _
  | mafd => exact writes_atCmdAdvDataSet _ _ _
  | sern => exact writes_uuidSet hsurvives .dataSrv _ _
  | serd => exact writes_uuidSet hsurvives .drvSrv _ _
  | chat => exact writes_uuidSet hsurvives .tx _ _
  | char => exact writes_uuidSet hsurvives .rx _ _
  | chad =>
      dsimp only
      rw [atCmdDrvAdcCharUuidSet_eq (hshared hcommand)]
      exact writes_uuidSet hsurvives .adc _ _
  | chap => exact writes_uuidSet hsurvives .pwm _ _
  | rssi => exact writes_atCmdRssiSet _ _ _ _
  | crts => exact writes_atCmdRtsFuncSet _ _

/-! ## The defaults -/

/-- What a reset stores. -/
def defaultData : Setting → List UInt8
  | .advState => [1]
  | .advInterval => wordBytes 0x0140
  | .name => (writeName Config.default.advNameData
      (fun i => Config.default.advNameData.toList.getD i 0) 10).toList
  | .baud => [0]
  | .connInterval => wordBytes 0x10
  | .userData => Config.default.advUserData.toList
  | .uuid .dataSrv => wordBytes 0x0001
  | .uuid .tx => wordBytes 0x0002
  | .uuid .rx => wordBytes 0x0003
  | .uuid .drvSrv => wordBytes 0x0004
  | .uuid .adc => wordBytes 0x0005
  | .uuid .pwm => wordBytes 0x0006
  | .rssiMode => [0]
  | .rts => [1]

theorem setAppCfgToDefault_key (setting : Setting) :
    setAppCfgToDefault Nvram.empty setting.key = some (defaultData setting) := by
  cases setting with
  | uuid which => cases which <;> decide
  | _ => decide

/-- No setting depends on what the buffers of the loader held. -/
theorem value_load_default (stack : Nat → UInt8) (nvram : Nvram) (setting : Setting) :
    (loadAppCfgFromNv stack (nvramConfigSet setting.key (defaultData setting) nvram)
        Config.default).value setting =
      (loadAppCfgFromNv (fun _ => 0) (nvramConfigSet setting.key (defaultData setting) nvram)
        Config.default).value setting := by
  cases setting with
  | uuid which =>
      dsimp only [Config.value, loadAppCfgFromNv, Setting.key]
      cases which <;> simp only [defaultData, loadUuid_set]
  | name =>
      have hloaded (stack : Nat → UInt8) := loadName_set stack nvram Config.default.advNameData
        (fun i => Config.default.advNameData.toList.getD i 0)
        (show (10 : UInt8).toNat ≤ 20 by decide)
        (Config.default.advNameData, Config.default.scanDataLen)
      dsimp only [Config.value, loadAppCfgFromNv, Setting.key, defaultData]
      rw [(hloaded stack).1, (hloaded stack).2, (hloaded _).1, (hloaded _).2]
  | _ =>
      simp only [Config.value, loadAppCfgFromNv, Setting.key, defaultData, loadU8_set,
        loadU16_set, loadUserData_set]

theorem survives_start (reset : Bool) : Survives (App.start (defaultNvram reset)) := by
  intro stack setting
  cases reset with
  | false => cases setting <;> rfl
  | true =>
      have hkey : (defaultNvram true) setting.key =
          (nvramConfigSet setting.key (defaultData setting) Nvram.empty) setting.key := by
        rw [nvramConfigSet_self]
        exact setAppCfgToDefault_key setting
      dsimp only [App.start]
      rw [value_load_congr stack _ hkey, value_load_congr (fun _ => 0) _ hkey,
        value_load_default]

/-- The settings survive a restart and every command keeps to its own one exactly if the
ADC characteristic is only given the UUID that the service has. -/
theorem config_survives_iff (reset : Bool) (calls : List SetCall) :
    (Throughout setCmd Survives (App.start (defaultNvram reset)) calls ∧
        Along setCmd OnlyNamed (App.start (defaultNvram reset)) calls) ↔
      Along setCmd AdcUuidShared (App.start (defaultNvram reset)) calls := by
  have hkept (app : App) (call : SetCall) (hsurvives : Survives app)
      (hshared : AdcUuidShared app call) : Survives (setCmd app call) :=
    (writes_setCmd hsurvives hshared).survives hsurvives
  have honly : Along setCmd OnlyNamed (App.start (defaultNvram reset)) calls ↔
      Along setCmd AdcUuidShared (App.start (defaultNvram reset)) calls :=
    along_congr_of_invariant Survives
      (fun app call hsurvives => ⟨adcUuidShared_of_onlyNamed,
        fun hshared => (writes_setCmd hsurvives hshared).onlyNamed⟩)
      hkept (survives_start reset)
  rw [honly]
  constructor
  · exact And.right
  · intro hshared
    exact ⟨throughout_of_invariant Survives hkept (survives_start reset) hshared, hshared⟩

/-- `AT+CHAD-1234` -/
def adcCall : SetCall where
  command := .chad
  para := [0x31, 0x32, 0x33, 0x34]
  uninit := fun _ => 0
  rssi := 0
  sent := true

/-- The UUID of the service is `1234` until the module restarts. -/
theorem adcCall_lost : ¬ Survives (run setCmd (App.start (defaultNvram false)) [adcCall]) := by
  intro hsurvives
  have hvalue := hsurvives (fun _ => 0) (.uuid .drvSrv)
  revert hvalue
  decide

end CubieBle.ModulePer
