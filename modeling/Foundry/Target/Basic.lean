import Foundry.Text.Affix

/-! The closed set of compilation targets. Each belongs to one family, and the family decides how
an artifact is linked and what it is called. -/
namespace Foundry

/-- What the targets of one kind of system have in common. -/
inductive Family where
  | linux
  | apple
  | android
  | mingw
  | wasm
deriving DecidableEq, Repr

inductive Target where
  | linuxX64
  | raspberryPi
  | linuxMips32
  | linuxMipsel32
  | macosX64
  | iosArm64
  | iosX64
  | androidArm32
  | androidArm64
  | mingwX64
  | wasm32
deriving DecidableEq, Repr

namespace Family

def name : Family → String
  | linux => "linux"
  | apple => "apple"
  | android => "android"
  | mingw => "mingw"
  | wasm => "wasm"

end Family

namespace Target

/-- All targets, in the order in which they are listed. -/
def all : List Target :=
  [linuxX64, raspberryPi, linuxMips32, linuxMipsel32, macosX64, iosArm64, iosX64, androidArm32,
    androidArm64, mingwX64, wasm32]

/-- The name by which users know a target. -/
def name : Target → String
  | linuxX64 => "linux_x64"
  | raspberryPi => "raspberrypi"
  | linuxMips32 => "linux_mips32"
  | linuxMipsel32 => "linux_mipsel32"
  | macosX64 => "macos_x64"
  | iosArm64 => "ios_arm64"
  | iosX64 => "ios_x64"
  | androidArm32 => "android_arm32"
  | androidArm64 => "android_arm64"
  | mingwX64 => "mingw_x64"
  | wasm32 => "wasm32"

def family : Target → Family
  | linuxX64 | raspberryPi | linuxMips32 | linuxMipsel32 => .linux
  | macosX64 | iosArm64 | iosX64 => .apple
  | androidArm32 | androidArm64 => .android
  | mingwX64 => .mingw
  | wasm32 => .wasm

/-- The triple under which compilers know a target. -/
def triple : Target → String
  | linuxX64 => "x86_64-unknown-linux-gnu"
  | raspberryPi => "armv6-unknown-linux-gnueabihf"
  | linuxMips32 => "mips-unknown-linux-gnu"
  | linuxMipsel32 => "mipsel-unknown-linux-gnu"
  | macosX64 => "x86_64-apple-macosx"
  | iosArm64 => "arm64-apple-ios"
  | iosX64 => "x86_64-apple-ios-simulator"
  | androidArm32 => "arm-unknown-linux-androideabi"
  | androidArm64 => "aarch64-unknown-linux-android"
  | mingwX64 => "x86_64-w64-mingw32"
  | wasm32 => "wasm32-unknown-unknown"

def isMips (target : Target) : Bool := target = linuxMips32 || target = linuxMipsel32

def ofName? (name : String) : Option Target := all.find? (·.name = name)

end Target

end Foundry
