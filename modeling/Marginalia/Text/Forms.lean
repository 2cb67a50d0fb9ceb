import Marginalia.Text.Case.Tables

/-!
# Plain forms

Letters, digits and low lines have special forms in Unicode 14, such as wide, raised or bold ones
and ligatures. In a name they count as the plain ones that they stand for. Only forms of ASCII
characters are known here.
-/

namespace Marginalia.Text

/-- The forms that stand for one character each. -/
def formRuns : List CaseRun := [
  ⟨0xAA, 0xAA, 1, -73⟩, ⟨0xBA, 0xBA, 1, -75⟩, ⟨0x17F, 0x17F, 1, -268⟩, ⟨0x2B0, 0x2B0, 1, -584⟩,
  ⟨0x2B2, 0x2B2, 1, -584⟩, ⟨0x2B3, 0x2B3, 1, -577⟩, ⟨0x2B7, 0x2B7, 1, -576⟩,
  ⟨0x2B8, 0x2B8, 1, -575⟩, ⟨0x2E1, 0x2E1, 1, -629⟩, ⟨0x2E2, 0x2E2, 1, -623⟩,
  ⟨0x2E3, 0x2E3, 1, -619⟩, ⟨0x1D2C, 0x1D2C, 1, -7403⟩, ⟨0x1D2E, 0x1D2E, 1, -7404⟩,
  ⟨0x1D30, 0x1D31, 1, -7404⟩, ⟨0x1D33, 0x1D3A, 1, -7404⟩, ⟨0x1D3C, 0x1D3C, 1, -7405⟩,
  ⟨0x1D3E, 0x1D3E, 1, -7406⟩, ⟨0x1D3F, 0x1D3F, 1, -7405⟩, ⟨0x1D40, 0x1D41, 1, -7404⟩,
  ⟨0x1D42, 0x1D42, 1, -7403⟩, ⟨0x1D43, 0x1D43, 1, -7394⟩, ⟨0x1D47, 0x1D47, 1, -7397⟩,
  ⟨0x1D48, 0x1D49, 1, -7396⟩, ⟨0x1D4D, 0x1D4D, 1, -7398⟩, ⟨0x1D4F, 0x1D4F, 1, -7396⟩,
  ⟨0x1D50, 0x1D50, 1, -7395⟩, ⟨0x1D52, 0x1D52, 1, -7395⟩, ⟨0x1D56, 0x1D56, 1, -7398⟩,
  ⟨0x1D57, 0x1D58, 1, -7395⟩, ⟨0x1D5B, 0x1D5B, 1, -7397⟩, ⟨0x1D62, 0x1D62, 1, -7417⟩,
  ⟨0x1D63, 0x1D63, 1, -7409⟩, ⟨0x1D64, 0x1D65, 1, -7407⟩, ⟨0x1D9C, 0x1D9C, 1, -7481⟩,
  ⟨0x1DA0, 0x1DA0, 1, -7482⟩, ⟨0x1DBB, 0x1DBB, 1, -7489⟩, ⟨0x2071, 0x2071, 1, -8200⟩,
  ⟨0x207F, 0x207F, 1, -8209⟩, ⟨0x2090, 0x2090, 1, -8239⟩, ⟨0x2091, 0x2091, 1, -8236⟩,
  ⟨0x2092, 0x2092, 1, -8227⟩, ⟨0x2093, 0x2093, 1, -8219⟩, ⟨0x2095, 0x2095, 1, -8237⟩,
  ⟨0x2096, 0x2099, 1, -8235⟩, ⟨0x209A, 0x209A, 1, -8234⟩, ⟨0x209B, 0x209C, 1, -8232⟩,
  ⟨0x2102, 0x2102, 1, -8383⟩, ⟨0x210A, 0x210A, 1, -8355⟩, ⟨0x210B, 0x210B, 1, -8387⟩,
  ⟨0x210C, 0x210C, 1, -8388⟩, ⟨0x210D, 0x210D, 1, -8389⟩, ⟨0x210E, 0x210E, 1, -8358⟩,
  ⟨0x2110, 0x2110, 1, -8391⟩, ⟨0x2111, 0x2111, 1, -8392⟩, ⟨0x2112, 0x2112, 1, -8390⟩,
  ⟨0x2113, 0x2113, 1, -8359⟩, ⟨0x2115, 0x2115, 1, -8391⟩, ⟨0x2119, 0x211B, 1, -8393⟩,
  ⟨0x211C, 0x211C, 1, -8394⟩, ⟨0x211D, 0x211D, 1, -8395⟩, ⟨0x2124, 0x2124, 1, -8394⟩,
  ⟨0x2128, 0x2128, 1, -8398⟩, ⟨0x212A, 0x212A, 1, -8415⟩, ⟨0x212C, 0x212D, 1, -8426⟩,
  ⟨0x212F, 0x212F, 1, -8394⟩, ⟨0x2130, 0x2131, 1, -8427⟩, ⟨0x2133, 0x2133, 1, -8422⟩,
  ⟨0x2134, 0x2134, 1, -8389⟩, ⟨0x2139, 0x2139, 1, -8400⟩, ⟨0x2145, 0x2145, 1, -8449⟩,
  ⟨0x2146, 0x2147, 1, -8418⟩, ⟨0x2148, 0x2149, 1, -8415⟩, ⟨0x2160, 0x2160, 1, -8471⟩,
  ⟨0x2164, 0x2164, 1, -8462⟩, ⟨0x2169, 0x2169, 1, -8465⟩, ⟨0x216C, 0x216C, 1, -8480⟩,
  ⟨0x216D, 0x216E, 1, -8490⟩, ⟨0x216F, 0x216F, 1, -8482⟩, ⟨0x2170, 0x2170, 1, -8455⟩,
  ⟨0x2174, 0x2174, 1, -8446⟩, ⟨0x2179, 0x2179, 1, -8449⟩, ⟨0x217C, 0x217C, 1, -8464⟩,
  ⟨0x217D, 0x217E, 1, -8474⟩, ⟨0x217F, 0x217F, 1, -8466⟩, ⟨0x2C7C, 0x2C7C, 1, -11282⟩,
  ⟨0x2C7D, 0x2C7D, 1, -11303⟩, ⟨0xA7F2, 0xA7F2, 1, -42927⟩, ⟨0xA7F3, 0xA7F3, 1, -42925⟩,
  ⟨0xA7F4, 0xA7F4, 1, -42915⟩, ⟨0xFE33, 0xFE33, 1, -64980⟩, ⟨0xFE34, 0xFE34, 1, -64981⟩,
  ⟨0xFE4D, 0xFE4D, 1, -65006⟩, ⟨0xFE4E, 0xFE4E, 1, -65007⟩, ⟨0xFE4F, 0xFE4F, 1, -65008⟩,
  ⟨0xFF10, 0xFF19, 1, -65248⟩, ⟨0xFF21, 0xFF3A, 1, -65248⟩, ⟨0xFF3F, 0xFF3F, 1, -65248⟩,
  ⟨0xFF41, 0xFF5A, 1, -65248⟩, ⟨0x107A5, 0x107A5, 1, -67380⟩, ⟨0x1D400, 0x1D419, 1, -119743⟩,
  ⟨0x1D41A, 0x1D433, 1, -119737⟩, ⟨0x1D434, 0x1D44D, 1, -119795⟩, ⟨0x1D44E, 0x1D454, 1, -119789⟩,
  ⟨0x1D456, 0x1D467, 1, -119789⟩, ⟨0x1D468, 0x1D481, 1, -119847⟩, ⟨0x1D482, 0x1D49B, 1, -119841⟩,
  ⟨0x1D49C, 0x1D49C, 1, -119899⟩, ⟨0x1D49E, 0x1D49F, 1, -119899⟩, ⟨0x1D4A2, 0x1D4A2, 1, -119899⟩,
  ⟨0x1D4A5, 0x1D4A6, 1, -119899⟩, ⟨0x1D4A9, 0x1D4AC, 1, -119899⟩, ⟨0x1D4AE, 0x1D4B5, 1, -119899⟩,
  ⟨0x1D4B6, 0x1D4B9, 1, -119893⟩, ⟨0x1D4BB, 0x1D4BB, 1, -119893⟩, ⟨0x1D4BD, 0x1D4C3, 1, -119893⟩,
  ⟨0x1D4C5, 0x1D4CF, 1, -119893⟩, ⟨0x1D4D0, 0x1D4E9, 1, -119951⟩, ⟨0x1D4EA, 0x1D503, 1, -119945⟩,
  ⟨0x1D504, 0x1D505, 1, -120003⟩, ⟨0x1D507, 0x1D50A, 1, -120003⟩, ⟨0x1D50D, 0x1D514, 1, -120003⟩,
  ⟨0x1D516, 0x1D51C, 1, -120003⟩, ⟨0x1D51E, 0x1D537, 1, -119997⟩, ⟨0x1D538, 0x1D539, 1, -120055⟩,
  ⟨0x1D53B, 0x1D53E, 1, -120055⟩, ⟨0x1D540, 0x1D544, 1, -120055⟩, ⟨0x1D546, 0x1D546, 1, -120055⟩,
  ⟨0x1D54A, 0x1D550, 1, -120055⟩, ⟨0x1D552, 0x1D56B, 1, -120049⟩, ⟨0x1D56C, 0x1D585, 1, -120107⟩,
  ⟨0x1D586, 0x1D59F, 1, -120101⟩, ⟨0x1D5A0, 0x1D5B9, 1, -120159⟩, ⟨0x1D5BA, 0x1D5D3, 1, -120153⟩,
  ⟨0x1D5D4, 0x1D5ED, 1, -120211⟩, ⟨0x1D5EE, 0x1D607, 1, -120205⟩, ⟨0x1D608, 0x1D621, 1, -120263⟩,
  ⟨0x1D622, 0x1D63B, 1, -120257⟩, ⟨0x1D63C, 0x1D655, 1, -120315⟩, ⟨0x1D656, 0x1D66F, 1, -120309⟩,
  ⟨0x1D670, 0x1D689, 1, -120367⟩, ⟨0x1D68A, 0x1D6A3, 1, -120361⟩, ⟨0x1D7CE, 0x1D7D7, 1, -120734⟩,
  ⟨0x1D7D8, 0x1D7E1, 1, -120744⟩, ⟨0x1D7E2, 0x1D7EB, 1, -120754⟩, ⟨0x1D7EC, 0x1D7F5, 1, -120764⟩,
  ⟨0x1D7F6, 0x1D7FF, 1, -120774⟩, ⟨0x1FBF0, 0x1FBF9, 1, -129984⟩]

/-- The forms that stand for several characters. -/
def formStrings : List (Nat × String) := [
  (0x132, "IJ"), (0x133, "ij"), (0x1C7, "LJ"), (0x1C8, "Lj"), (0x1C9, "lj"), (0x1CA, "NJ"),
  (0x1CB, "Nj"), (0x1CC, "nj"), (0x1F1, "DZ"), (0x1F2, "Dz"), (0x1F3, "dz"), (0x2161, "II"),
  (0x2162, "III"), (0x2163, "IV"), (0x2165, "VI"), (0x2166, "VII"), (0x2167, "VIII"),
  (0x2168, "IX"), (0x216A, "XI"), (0x216B, "XII"), (0x2171, "ii"), (0x2172, "iii"), (0x2173, "iv"),
  (0x2175, "vi"), (0x2176, "vii"), (0x2177, "viii"), (0x2178, "ix"), (0x217A, "xi"),
  (0x217B, "xii"), (0xFB00, "ff"), (0xFB01, "fi"), (0xFB02, "fl"), (0xFB03, "ffi"),
  (0xFB04, "ffl"), (0xFB05, "st"), (0xFB06, "st")]

/-- What a character stands for in a name. -/
def plainChar (c : Char) : List Char :=
  match formStrings.lookup c.toNat with
  | some plain => plain.toList
  | none => [Char.ofNat (CaseRun.apply formRuns c.toNat)]

/-- A name with the plain forms of its characters. -/
def plainName (name : String) : String :=
  String.ofList (name.toList.flatMap plainChar)

end Marginalia.Text
