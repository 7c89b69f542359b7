import Milo.Engine.Manifest

namespace Milo.Targets.Sim

open Milo.Engine.Manifest Milo.MainLoop

-- The profiles of the emulator.
inductive SimProfile where
  | drone
  | conveyor
  | oven
  | arm
deriving DecidableEq, Repr

def SimProfile.board : SimProfile → String
  | .drone => "sim-drone"
  | .conveyor => "sim-conveyor"
  | .oven => "sim-oven"
  | .arm => "sim-arm"

def SimProfile.capabilities : SimProfile → Capabilities
  | .drone =>
      { gpio := { pins := [25] }
        pwm := { pins := [0, 1, 2, 3], resolutionBits := 14 }
        adc := { pins := [0], resolutionBits := 12, vrefMv := 3300 }
        i2c := [{ busId := 0, sdaPin := 4, sclPin := 5, devicesPresent := [0x68] }]
        spi := []
        uart := [] }
  | .conveyor =>
      { gpio := { pins := [25, 26] }
        pwm := { pins := [0], resolutionBits := 14 }
        adc := { pins := [1], resolutionBits := 12, vrefMv := 3300 }
        i2c := []
        spi := []
        uart := [] }
  | .oven =>
      { gpio := { pins := [25] }
        pwm := { pins := [0], resolutionBits := 14 }
        adc := { pins := [0], resolutionBits := 12, vrefMv := 3300 }
        i2c := []
        spi := []
        uart := [] }
  | .arm =>
      { gpio := { pins := [20, 21, 25] }
        pwm := { pins := [0, 1, 2, 3], resolutionBits := 14 }
        adc := { pins := [0], resolutionBits := 12, vrefMv := 3300 }
        i2c := []
        spi := []
        uart := [] }

-- The version is that of the package.
def SimProfile.header (profile : SimProfile) (version : String) : ManifestHeader where
  board := profile.board
  family := "sim"
  firmwareVersion := version
  ramKb := 4096
  flashKb := 0
  maxWasmMemoryKb := 64
  maxWasmStackKb := 8
  fuelDefault := 500000000

-- The call text.replace_range(0..1, by), which wants a first character of one byte.
def replaceFirst (text new : String) : Except Fault String :=
  match text.toList with
  | [] => .error .panic
  | c :: rest => if c.utf8Size = 1 then .ok (new ++ String.ofList rest) else .error .panic

def simManifest (version : String) (profile : SimProfile) (name : String) : Except Fault String :=
  replaceFirst (build (profile.header version) profile.capabilities)
    ("\x7b\"name\":\"" ++ jsonEscape name ++ "\",")

end Milo.Targets.Sim
