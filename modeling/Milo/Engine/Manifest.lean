import Milo.MainLoop

namespace Milo.Engine.Manifest

open Milo.MainLoop

structure ManifestHeader where
  board : String
  family : String
  firmwareVersion : String
  ramKb : UInt32
  flashKb : UInt32
  maxWasmMemoryKb : UInt32
  maxWasmStackKb : UInt32
  fuelDefault : UInt64

structure GpioCapability where
  pins : List UInt32

structure PwmCapability where
  pins : List UInt32
  resolutionBits : UInt8

structure AdcCapability where
  pins : List UInt32
  resolutionBits : UInt8
  vrefMv : UInt32

structure I2cCapability where
  busId : UInt32
  sdaPin : UInt32
  sclPin : UInt32
  devicesPresent : List UInt8

structure SpiCapability where
  busId : UInt32
  mosiPin : UInt32
  misoPin : UInt32
  sckPin : UInt32

structure UartCapability where
  busId : UInt32
  txPin : UInt32
  rxPin : UInt32

structure Capabilities where
  gpio : GpioCapability
  pwm : PwmCapability
  adc : AdcCapability
  i2c : List I2cCapability
  spi : List SpiCapability
  uart : List UartCapability

-- The loops that push items with commas between them.
def commas (items : List String) : String := String.intercalate "," items

def decimals (vs : List UInt32) : String := commas (vs.map fun v => toString v.toNat)

-- It escapes like json_escape.
def jsonString (key value : String) : String := "\"" ++ key ++ "\":\"" ++ jsonEscape value ++ "\""

-- The object that the prefix opens is left open.
def jsonArrayU32 (start : String) (vs : List UInt32) : String := start ++ "[" ++ decimals vs ++ "]"

def jsonU32ArrayField (key : String) (vs : List UInt32) : String :=
  "\"" ++ key ++ "\":[" ++ decimals vs ++ "]"

def ALPHABET : List String :=
  ["gpio_set", "gpio_get", "delay_ms", "get_uptime_us", "i2c_transfer", "log_msg", "pwm_set",
    "adc_read", "spi_transfer", "uart_write", "uart_read", "get_param"]

def I2cCapability.json (bus : I2cCapability) : String :=
  "\x7b\"bus_id\":" ++ toString bus.busId.toNat ++ ",\"sda_pin\":" ++ toString bus.sdaPin.toNat ++
    ",\"scl_pin\":" ++ toString bus.sclPin.toNat ++ ",\"devices_present\":[" ++
    commas (bus.devicesPresent.map fun addr => "\"0x" ++ hex 2 addr.toNat ++ "\"") ++ "]\x7d"

def SpiCapability.json (bus : SpiCapability) : String :=
  "\x7b\"bus_id\":" ++ toString bus.busId.toNat ++ ",\"mosi_pin\":" ++ toString bus.mosiPin.toNat ++
    ",\"miso_pin\":" ++ toString bus.misoPin.toNat ++ ",\"sck_pin\":" ++
    toString bus.sckPin.toNat ++ "\x7d"

def UartCapability.json (bus : UartCapability) : String :=
  "\x7b\"bus_id\":" ++ toString bus.busId.toNat ++ ",\"tx_pin\":" ++ toString bus.txPin.toNat ++
    ",\"rx_pin\":" ++ toString bus.rxPin.toNat ++ "\x7d"

-- The array of a kind of bus, with the comma before it. Without buses there is none.
def busesJson (key : String) (buses : List String) : String :=
  if buses = [] then "" else ",\"" ++ key ++ "\":[" ++ commas buses ++ "]"

def capabilitiesJson (caps : Capabilities) : String :=
  "\"capabilities\":\x7b" ++ jsonArrayU32 "\"gpio\":\x7b\"pins\":" caps.gpio.pins ++ "\x7d," ++
    "\"pwm\":\x7b" ++ jsonU32ArrayField "pins" caps.pwm.pins ++ ",\"resolution_bits\":" ++
    toString caps.pwm.resolutionBits.toNat ++ "\x7d," ++
    "\"adc\":\x7b" ++ jsonU32ArrayField "pins" caps.adc.pins ++ ",\"resolution_bits\":" ++
    toString caps.adc.resolutionBits.toNat ++ ",\"vref_mv\":" ++ toString caps.adc.vrefMv.toNat ++
    "\x7d" ++ busesJson "i2c" (caps.i2c.map I2cCapability.json) ++
    busesJson "spi" (caps.spi.map SpiCapability.json) ++
    busesJson "uart" (caps.uart.map UartCapability.json) ++ "\x7d"

def build (header : ManifestHeader) (caps : Capabilities) : String :=
  "\x7b" ++ jsonString "board" header.board ++ "," ++ jsonString "family" header.family ++ "," ++
    jsonString "firmware_version" header.firmwareVersion ++ "," ++ capabilitiesJson caps ++ "," ++
    "\"memory\":\x7b\"ram_kb\":" ++ toString header.ramKb.toNat ++ ",\"flash_kb\":" ++
    toString header.flashKb.toNat ++ "\x7d" ++ "," ++
    "\"wasm_limits\":\x7b\"max_memory_kb\":" ++ toString header.maxWasmMemoryKb.toNat ++
    ",\"max_stack_kb\":" ++ toString header.maxWasmStackKb.toNat ++ ",\"fuel_default\":" ++
    toString header.fuelDefault.toNat ++ "\x7d" ++ "," ++
    "\"alphabet\":[" ++ commas (ALPHABET.map fun name => "\"" ++ name ++ "\"") ++ "]" ++ "\x7d"

end Milo.Engine.Manifest
