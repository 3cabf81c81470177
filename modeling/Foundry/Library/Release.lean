/-! What a library says about the program that wrote it, and how library files are called. -/
namespace Foundry

def programName : String := "kilnc"

def programVersion : String := "0.3.0"

/-- What the file name of a packed library ends in. -/
def librarySuffix : String := ".klib"

/-- The file of a library that holds its manifest. -/
def manifestName : String := "manifest"

end Foundry
