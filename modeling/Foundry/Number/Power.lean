/-! Powers of the two bases in which numbers are written. -/
namespace Foundry

abbrev twoTo (n : Nat) : Nat := Nat.pow 2 n

abbrev tenTo (n : Nat) : Nat := Nat.pow 10 n

end Foundry
