import Milo.Targets.Sim.Profile
import Milo.MainLoop.ResultJson

-- The object that a manifest decodes to.
namespace Milo.Engine.Manifest

open Milo.Rust Milo.MainLoop Milo.Lib.Json
open Milo.Targets.Sim (simManifest replaceFirst)

section Values

def pinsValue (pins : List UInt32) : Value := .array (pins.map fun pin => .int pin.toNat)

def addressValue (addr : UInt8) : Value := .str ("0x" ++ hex 2 addr.toNat)

def I2cCapability.value (bus : I2cCapability) : Value :=
  .object [("bus_id", .int bus.busId.toNat), ("sda_pin", .int bus.sdaPin.toNat),
    ("scl_pin", .int bus.sclPin.toNat),
    ("devices_present", .array (bus.devicesPresent.map addressValue))]

def SpiCapability.value (bus : SpiCapability) : Value :=
  .object [("bus_id", .int bus.busId.toNat), ("mosi_pin", .int bus.mosiPin.toNat),
    ("miso_pin", .int bus.misoPin.toNat), ("sck_pin", .int bus.sckPin.toNat)]

def UartCapability.value (bus : UartCapability) : Value :=
  .object [("bus_id", .int bus.busId.toNat), ("tx_pin", .int bus.txPin.toNat),
    ("rx_pin", .int bus.rxPin.toNat)]

-- No array stands for no buses.
def busMembers (key : String) (buses : List Value) : List (String × Value) :=
  if buses.isEmpty then [] else [(key, .array buses)]

def capabilitiesMembers (caps : Capabilities) : List (String × Value) :=
  ("gpio", .object [("pins", pinsValue caps.gpio.pins)]) ::
  ("pwm", .object [("pins", pinsValue caps.pwm.pins),
    ("resolution_bits", .int caps.pwm.resolutionBits.toNat)]) ::
  ("adc", .object [("pins", pinsValue caps.adc.pins),
    ("resolution_bits", .int caps.adc.resolutionBits.toNat),
    ("vref_mv", .int caps.adc.vrefMv.toNat)]) ::
  (busMembers "i2c" (caps.i2c.map I2cCapability.value) ++
    (busMembers "spi" (caps.spi.map SpiCapability.value) ++
      busMembers "uart" (caps.uart.map UartCapability.value)))

def manifestMembers (header : ManifestHeader) (caps : Capabilities) : List (String × Value) :=
  [("board", .str header.board), ("family", .str header.family),
    ("firmware_version", .str header.firmwareVersion),
    ("capabilities", .object (capabilitiesMembers caps)),
    ("memory", .object [("ram_kb", .int header.ramKb.toNat), ("flash_kb", .int header.flashKb.toNat)]),
    ("wasm_limits", .object [("max_memory_kb", .int header.maxWasmMemoryKb.toNat),
      ("max_stack_kb", .int header.maxWasmStackKb.toNat),
      ("fuel_default", .int header.fuelDefault.toNat)]),
    ("alphabet", .array (ALPHABET.map .str))]

end Values

section Texts

theorem writes_decimals (vs : List UInt32) :
    Writes ('[' :: ((decimals vs).toList ++ [']'])) (pinsValue vs) :=
  writes_map vs fun v _ => writes_toString v.toNat

theorem writesMember_jsonString (key value : String) (hkey : Unescaped key.toList) :
    WritesMember (jsonString key value).toList (key, .str value) := by
  have hmember := writes_member key hkey (writes_quoted value)
  unfold named quoted at hmember
  unfold jsonString
  simp only [String.toList_append, String.reduceToList, List.cons_append, List.nil_append,
    List.append_assoc] at hmember ⊢
  exact hmember

theorem unescaped_hex2 : ∀ n < 256, Unescaped (List.leftpad 2 '0' (Nat.toDigits 16 n)) := by
  decide +kernel

theorem writes_address (addr : UInt8) :
    Writes ("\"0x" ++ hex 2 addr.toNat ++ "\"").toList (addressValue addr) := by
  have hdigits : (hex 2 addr.toNat).toList = List.leftpad 2 '0' (Nat.toDigits 16 addr.toNat) :=
    String.toList_ofList
  have hprefix : Unescaped "0x".toList := by decide
  have hspells : Spells ("0x" ++ hex 2 addr.toNat).toList ("0x" ++ hex 2 addr.toNat).toList := by
    rw [String.toList_append, hdigits]
    exact (spells_plain (unescaped_hex2 addr.toNat addr.toNat_lt)).plain_append hprefix
  have hwrites := writes_str hspells
  rw [String.ofList_toList] at hwrites
  simp only [String.toList_append, String.reduceToList, List.cons_append, List.nil_append] at hwrites ⊢
  exact hwrites

theorem writesMember_nat (key : String) (hkey : Unescaped key.toList) (n : Nat) :
    WritesMember (named key.toList ++ (toString n).toList) (key, .int n) :=
  writes_member key hkey (writes_toString n)

theorem I2cCapability.writes (bus : I2cCapability) : Writes bus.json.toList bus.value := by
  have hobject := writes_object (.cons (writesMember_nat "bus_id" (by decide) bus.busId.toNat)
    (.cons (writesMember_nat "sda_pin" (by decide) bus.sdaPin.toNat)
      (.cons (writesMember_nat "scl_pin" (by decide) bus.sclPin.toNat)
        (.cons (writes_member "devices_present" (by decide)
          (writes_map bus.devicesPresent fun addr _ => writes_address addr)) .nil))))
  simp only [named, commaed_cons, commaed_singleton, String.reduceToList, List.cons_append,
    List.nil_append, List.append_assoc] at hobject
  unfold I2cCapability.json
  simp only [String.toList_append, String.reduceToList, List.cons_append, List.nil_append,
    List.append_assoc] at hobject ⊢
  exact hobject

theorem SpiCapability.writes (bus : SpiCapability) : Writes bus.json.toList bus.value := by
  have hobject := writes_object (.cons (writesMember_nat "bus_id" (by decide) bus.busId.toNat)
    (.cons (writesMember_nat "mosi_pin" (by decide) bus.mosiPin.toNat)
      (.cons (writesMember_nat "miso_pin" (by decide) bus.misoPin.toNat)
        (.cons (writesMember_nat "sck_pin" (by decide) bus.sckPin.toNat) .nil))))
  simp only [named, commaed_cons, commaed_singleton, String.reduceToList, List.cons_append,
    List.nil_append, List.append_assoc] at hobject
  unfold SpiCapability.json
  simp only [String.toList_append, String.reduceToList, List.cons_append, List.nil_append,
    List.append_assoc]
  exact hobject

theorem UartCapability.writes (bus : UartCapability) : Writes bus.json.toList bus.value := by
  have hobject := writes_object (.cons (writesMember_nat "bus_id" (by decide) bus.busId.toNat)
    (.cons (writesMember_nat "tx_pin" (by decide) bus.txPin.toNat)
      (.cons (writesMember_nat "rx_pin" (by decide) bus.rxPin.toNat) .nil)))
  simp only [named, commaed_cons, commaed_singleton, String.reduceToList, List.cons_append,
    List.nil_append, List.append_assoc] at hobject
  unfold UartCapability.json
  simp only [String.toList_append, String.reduceToList, List.cons_append, List.nil_append,
    List.append_assoc]
  exact hobject

-- A kind of bus adds the texts of its members, each behind a comma.
theorem writesMembers_busesJson {α : Type} {write : α → String} {read : α → Value} (key : String)
    (hkey : Unescaped key.toList) (h : ∀ a, Writes (write a).toList (read a)) (buses : List α) :
    ∃ texts, (busesJson key (buses.map write)).toList = texts.flatMap (',' :: ·) ∧
      List.Forall₂ WritesMember texts (busMembers key (buses.map read)) := by
  cases buses with
  | nil => exact ⟨[], rfl, .nil⟩
  | cons bus buses =>
      have hmember := writes_member key hkey (writes_map (bus :: buses) fun bus _ => h bus)
      refine ⟨[named key.toList ++ '[' :: ((commas ((bus :: buses).map write)).toList ++ [']'])], ?_,
        .cons hmember .nil⟩
      have hne : (bus :: buses).map write ≠ [] := List.cons_ne_nil _ _
      unfold busesJson named
      rw [if_neg hne]
      simp only [String.toList_append, String.reduceToList, List.cons_append, List.nil_append,
        List.append_assoc, List.flatMap_singleton]

theorem writesMember_capabilitiesJson (caps : Capabilities) :
    WritesMember (capabilitiesJson caps).toList
      ("capabilities", .object (capabilitiesMembers caps)) := by
  obtain ⟨i2c, hi2c, wi2c⟩ := writesMembers_busesJson "i2c" (by decide) I2cCapability.writes caps.i2c
  obtain ⟨spi, hspi, wspi⟩ := writesMembers_busesJson "spi" (by decide) SpiCapability.writes caps.spi
  obtain ⟨uart, huart, wuart⟩ :=
    writesMembers_busesJson "uart" (by decide) UartCapability.writes caps.uart
  have hgpio := writes_object (.cons (writes_member "pins" (by decide)
    (writes_decimals caps.gpio.pins)) .nil)
  have hpwm := writes_object (.cons (writes_member "pins" (by decide)
    (writes_decimals caps.pwm.pins)) (.cons (writesMember_nat "resolution_bits" (by decide)
      caps.pwm.resolutionBits.toNat) .nil))
  have hadc := writes_object (.cons (writes_member "pins" (by decide)
    (writes_decimals caps.adc.pins)) (.cons (writesMember_nat "resolution_bits" (by decide)
      caps.adc.resolutionBits.toNat) (.cons (writesMember_nat "vref_mv" (by decide)
        caps.adc.vrefMv.toNat) .nil)))
  have hobject := writes_member "capabilities" (by decide) (writes_object
    (.cons (writes_member "gpio" (by decide) hgpio) (.cons (writes_member "pwm" (by decide) hpwm)
      (.cons (writes_member "adc" (by decide) hadc)
        (List.rel_append wi2c (List.rel_append wspi wuart))))))
  simp only [named, commaed_flatMap, List.flatMap_cons, List.flatMap_nil, List.flatMap_append,
    String.reduceToList, List.cons_append, List.nil_append, List.append_assoc, ← hi2c, ← hspi,
    ← huart, List.append_nil] at hobject
  unfold capabilitiesJson jsonArrayU32 jsonU32ArrayField
  simp only [String.toList_append, String.reduceToList, List.cons_append, List.nil_append,
    List.append_assoc]
  exact hobject

theorem writes_ALPHABET : Writes
    ('[' :: ((commas (ALPHABET.map fun name => "\"" ++ name ++ "\"")).toList ++ [']']))
    (.array (ALPHABET.map .str)) := by
  have hplain : ∀ name ∈ ALPHABET, Unescaped name.toList := by decide +kernel
  refine writes_map ALPHABET fun name hname => ?_
  have hwrites := writes_str (spells_plain (hplain name hname))
  rw [String.ofList_toList] at hwrites
  rw [String.toList_append, String.toList_append]
  exact hwrites

-- The members of the manifest, of which the first is the board.
theorem build_members (header : ManifestHeader) (caps : Capabilities) :
    ∃ text texts, (build header caps).toList = '\x7b' :: (commaed (text :: texts) ++ ['\x7d']) ∧
      List.Forall₂ WritesMember (text :: texts) (manifestMembers header caps) := by
  have hmemory := writes_object (.cons (writesMember_nat "ram_kb" (by decide) header.ramKb.toNat)
    (.cons (writesMember_nat "flash_kb" (by decide) header.flashKb.toNat) .nil))
  have hlimits := writes_object
    (.cons (writesMember_nat "max_memory_kb" (by decide) header.maxWasmMemoryKb.toNat)
      (.cons (writesMember_nat "max_stack_kb" (by decide) header.maxWasmStackKb.toNat)
        (.cons (writesMember_nat "fuel_default" (by decide) header.fuelDefault.toNat) .nil)))
  refine ⟨_, _, ?_, .cons (writesMember_jsonString "board" header.board (by decide))
    (.cons (writesMember_jsonString "family" header.family (by decide))
      (.cons (writesMember_jsonString "firmware_version" header.firmwareVersion (by decide))
        (.cons (writesMember_capabilitiesJson caps)
          (.cons (writes_member "memory" (by decide) hmemory)
            (.cons (writes_member "wasm_limits" (by decide) hlimits)
              (.cons (writes_member "alphabet" (by decide) writes_ALPHABET) .nil))))))⟩
  unfold build
  simp only [named, commaed_cons, commaed_singleton, String.toList_append, String.reduceToList,
    List.cons_append, List.nil_append, List.append_assoc]

theorem loads_build (header : ManifestHeader) (caps : Capabilities) :
    loads (build header caps) = some (.object (manifestMembers header caps)) := by
  obtain ⟨text, texts, htext, hmembers⟩ := build_members header caps
  refine loads_writes ?_
  rw [htext]
  exact writes_object hmembers

theorem replaceFirst_cons {text : String} {c : Char} {rest : List Char} (h : text.toList = c :: rest)
    (hsize : c.utf8Size = 1) (new : String) :
    replaceFirst text new = .ok (new ++ String.ofList rest) := by
  unfold replaceFirst
  rw [h]
  exact if_pos hsize

-- The name becomes the first member.
theorem loads_splice (header : ManifestHeader) (caps : Capabilities) (name : String) :
    ∃ text, replaceFirst (build header caps) ("\x7b\"name\":\"" ++ jsonEscape name ++ "\",") =
        .ok text ∧
      loads text = some (.object (("name", .str name) :: manifestMembers header caps)) := by
  obtain ⟨text, texts, htext, hmembers⟩ := build_members header caps
  have hname := writes_member "name" (by decide) (writes_quoted name)
  have hobject := writes_object (.cons hname hmembers)
  refine ⟨_, replaceFirst_cons htext rfl _, loads_writes ?_⟩
  rw [commaed_cons] at hobject
  unfold named quoted at hobject
  simp only [String.toList_append, String.toList_ofList, String.reduceToList, List.cons_append,
    List.nil_append, List.append_assoc] at hobject ⊢
  exact hobject

end Texts

section Injective

theorem pinsValue_injective : Function.Injective pinsValue := by
  intro pins pins' h
  have hmap := Value.array.inj h
  refine List.map_injective_iff.mpr ?_ hmap
  intro pin pin' hpin
  exact UInt32.toNat_inj.mp (Int.ofNat.inj (Value.int.inj hpin))

theorem hex2_reads : ∀ n < 256, hex4 ('0' :: '0' :: List.leftpad 2 '0' (Nat.toDigits 16 n)) =
    some (n, []) := by
  decide +kernel

theorem addressValue_injective : Function.Injective addressValue := by
  intro addr addr' h
  have htext := congrArg String.toList (Value.str.inj h)
  unfold hex at htext
  simp only [String.toList_append, String.toList_ofList, List.append_cancel_left_eq] at htext
  have hread := hex2_reads addr.toNat addr.toNat_lt
  rw [htext, hex2_reads addr'.toNat addr'.toNat_lt] at hread
  exact UInt8.toNat_inj.mp (Prod.mk.inj (Option.some.inj hread)).1.symm

theorem I2cCapability.value_injective : Function.Injective I2cCapability.value := by
  rintro ⟨busId, sdaPin, sclPin, devicesPresent⟩ ⟨busId', sdaPin', sclPin', devicesPresent'⟩ h
  simp only [I2cCapability.value, Value.object.injEq, List.cons.injEq, Prod.mk.injEq,
    Value.int.injEq, Value.array.injEq, Int.natCast_inj, UInt32.toNat_inj, true_and, and_true] at h
  obtain ⟨rfl, rfl, rfl, hdevices⟩ := h
  rw [List.map_injective_iff.mpr addressValue_injective hdevices]

theorem SpiCapability.value_injective : Function.Injective SpiCapability.value := by
  rintro ⟨busId, mosiPin, misoPin, sckPin⟩ ⟨busId', mosiPin', misoPin', sckPin'⟩ h
  simp only [SpiCapability.value, Value.object.injEq, List.cons.injEq, Prod.mk.injEq,
    Value.int.injEq, Int.natCast_inj, UInt32.toNat_inj, true_and, and_true] at h
  obtain ⟨rfl, rfl, rfl, rfl⟩ := h
  rfl

theorem UartCapability.value_injective : Function.Injective UartCapability.value := by
  rintro ⟨busId, txPin, rxPin⟩ ⟨busId', txPin', rxPin'⟩ h
  simp only [UartCapability.value, Value.object.injEq, List.cons.injEq, Prod.mk.injEq,
    Value.int.injEq, Int.natCast_inj, UInt32.toNat_inj, true_and, and_true] at h
  obtain ⟨rfl, rfl, rfl⟩ := h
  rfl

theorem filter_busMembers (key key' : String) (buses : List Value) :
    (busMembers key buses).filter (fun member => member.1 = key') =
      if key = key' then busMembers key buses else [] := by
  unfold busMembers
  by_cases hkey : key = key'
  · cases buses with
    | nil => simp
    | cons bus buses => simp [hkey]
  · cases buses with
    | nil => simp
    | cons bus buses => simp [hkey]

theorem busMembers_injective (key : String) : Function.Injective (busMembers key) := by
  intro buses buses' h
  unfold busMembers at h
  cases buses with
  | nil =>
      cases buses' with
      | nil => rfl
      | cons bus' buses' => cases h
  | cons bus buses =>
      cases buses' with
      | nil => cases h
      | cons bus' buses' =>
          have hvalue := (Prod.mk.inj (List.cons.inj h).1).2
          exact Value.array.inj hvalue

-- The key of a kind of bus finds its members again.
theorem busMembers_append_inj {i2c spi uart i2c' spi' uart' : List Value}
    (h : busMembers "i2c" i2c ++ (busMembers "spi" spi ++ busMembers "uart" uart) =
      busMembers "i2c" i2c' ++ (busMembers "spi" spi' ++ busMembers "uart" uart')) :
    i2c = i2c' ∧ spi = spi' ∧ uart = uart' := by
  have hkey : ∀ key, _ := fun key : String =>
    congrArg (List.filter fun member : String × Value => member.1 = key) h
  simp only [List.filter_append, filter_busMembers] at hkey
  have hi2c := hkey "i2c"
  have hspi := hkey "spi"
  have huart := hkey "uart"
  simp only [String.reduceEq, if_true, if_false, List.append_nil, List.nil_append] at hi2c hspi huart
  exact ⟨busMembers_injective _ hi2c, busMembers_injective _ hspi, busMembers_injective _ huart⟩

theorem capabilitiesMembers_injective : Function.Injective capabilitiesMembers := by
  rintro ⟨⟨gpio⟩, ⟨pwm, pwmBits⟩, ⟨adc, adcBits, vref⟩, i2c, spi, uart⟩
    ⟨⟨gpio'⟩, ⟨pwm', pwmBits'⟩, ⟨adc', adcBits', vref'⟩, i2c', spi', uart'⟩ h
  simp only [capabilitiesMembers, Value.object.injEq, List.cons.injEq, Prod.mk.injEq,
    Value.int.injEq, Int.natCast_inj, UInt32.toNat_inj, UInt8.toNat_inj,
    pinsValue_injective.eq_iff, true_and, and_true] at h
  obtain ⟨rfl, ⟨rfl, rfl⟩, ⟨rfl, rfl, rfl⟩, hbuses⟩ := h
  obtain ⟨hi2c, hspi, huart⟩ := busMembers_append_inj hbuses
  rw [List.map_injective_iff.mpr I2cCapability.value_injective hi2c,
    List.map_injective_iff.mpr SpiCapability.value_injective hspi,
    List.map_injective_iff.mpr UartCapability.value_injective huart]

theorem manifestMembers_inj {header header' : ManifestHeader} {caps caps' : Capabilities}
    (h : manifestMembers header caps = manifestMembers header' caps') :
    header = header' ∧ caps = caps' := by
  obtain ⟨board, family, version, ram, flash, memory, stack, fuel⟩ := header
  obtain ⟨board', family', version', ram', flash', memory', stack', fuel'⟩ := header'
  simp only [manifestMembers, Value.object.injEq, List.cons.injEq, Prod.mk.injEq, Value.str.injEq,
    Value.int.injEq, Int.natCast_inj, UInt32.toNat_inj, UInt64.toNat_inj,
    capabilitiesMembers_injective.eq_iff, true_and, and_true] at h
  obtain ⟨rfl, rfl, rfl, rfl, ⟨rfl, rfl⟩, rfl, rfl, rfl⟩ := h
  exact ⟨rfl, rfl⟩

end Injective

-- A manifest decodes to the values it was built of, so no two have one text, and the
-- emulator adds its name to the object.
theorem build_decodes :
    (∀ header caps, loads (build header caps) = some (.object (manifestMembers header caps))) ∧
    (Function.Injective fun given : ManifestHeader × Capabilities => build given.1 given.2) ∧
    ∀ version profile name, ∃ text, simManifest version profile name = .ok text ∧
      loads text = some (.object (("name", .str name) ::
        manifestMembers (profile.header version) profile.capabilities)) := by
  refine ⟨loads_build, ?_, fun version profile name => loads_splice _ _ name⟩
  rintro ⟨header, caps⟩ ⟨header', caps'⟩ h
  have hloads := loads_build header' caps'
  rw [← show build header caps = build header' caps' from h, loads_build header caps] at hloads
  obtain ⟨rfl, rfl⟩ := manifestMembers_inj (Value.object.inj (Option.some.inj hloads))
  rfl

end Milo.Engine.Manifest
