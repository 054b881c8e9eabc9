import Scratchpad.Text.Ranges

/-! Full upper and lower case of texts. A character may become several ('ß' gives "SS"), and
a capital sigma that ends a word becomes the final small sigma. -/
namespace Scratchpad.Text

/-- Every `step`-th character from `first` to `last` moves by `shift`. -/
structure CaseRun where
  first : Nat
  last : Nat
  step : Nat
  shift : Int

/-- A character by itself. -/
def CaseRun.one (n : Nat) (shift : Int) : CaseRun := ⟨n, n, 1, shift⟩

def CaseRun.covers (r : CaseRun) (n : Nat) : Bool :=
  r.first ≤ n && n ≤ r.last && (n - r.first) % r.step == 0

/-- Upper case beyond ASCII, where it is one character. -/
def upperRuns : List CaseRun := [
  .one 0xB5 743, ⟨0xE0, 0xF6, 1, -32⟩, ⟨0xF8, 0xFE, 1, -32⟩, .one 0xFF 121, ⟨0x101, 0x12F, 2, -1⟩,
  .one 0x131 (-232), ⟨0x133, 0x137, 2, -1⟩, ⟨0x13A, 0x148, 2, -1⟩, ⟨0x14B, 0x177, 2, -1⟩,
  ⟨0x17A, 0x17E, 2, -1⟩, .one 0x17F (-300), .one 0x180 195, ⟨0x183, 0x185, 2, -1⟩, .one 0x188 (-1),
  .one 0x18C (-1), .one 0x192 (-1), .one 0x195 97, .one 0x199 (-1), .one 0x19A 163,
  .one 0x19B 42561, .one 0x19E 130, ⟨0x1A1, 0x1A5, 2, -1⟩, .one 0x1A8 (-1), .one 0x1AD (-1),
  .one 0x1B0 (-1), ⟨0x1B4, 0x1B6, 2, -1⟩, .one 0x1B9 (-1), .one 0x1BD (-1), .one 0x1BF 56,
  .one 0x1C5 (-1), .one 0x1C6 (-2), .one 0x1C8 (-1), .one 0x1C9 (-2), .one 0x1CB (-1),
  .one 0x1CC (-2), ⟨0x1CE, 0x1DC, 2, -1⟩, .one 0x1DD (-79), ⟨0x1DF, 0x1EF, 2, -1⟩, .one 0x1F2 (-1),
  .one 0x1F3 (-2), .one 0x1F5 (-1), ⟨0x1F9, 0x21F, 2, -1⟩, ⟨0x223, 0x233, 2, -1⟩, .one 0x23C (-1),
  ⟨0x23F, 0x240, 1, 10815⟩, .one 0x242 (-1), ⟨0x247, 0x24F, 2, -1⟩, .one 0x250 10783,
  .one 0x251 10780, .one 0x252 10782, .one 0x253 (-210), .one 0x254 (-206), ⟨0x256, 0x257, 1, -205⟩,
  .one 0x259 (-202), .one 0x25B (-203), .one 0x25C 42319, .one 0x260 (-205), .one 0x261 42315,
  .one 0x263 (-207), .one 0x264 42343, .one 0x265 42280, .one 0x266 42308, .one 0x268 (-209),
  .one 0x269 (-211), .one 0x26A 42308, .one 0x26B 10743, .one 0x26C 42305, .one 0x26F (-211),
  .one 0x271 10749, .one 0x272 (-213), .one 0x275 (-214), .one 0x27D 10727, .one 0x280 (-218),
  .one 0x282 42307, .one 0x283 (-218), .one 0x287 42282, .one 0x288 (-218), .one 0x289 (-69),
  ⟨0x28A, 0x28B, 1, -217⟩, .one 0x28C (-71), .one 0x292 (-219), .one 0x29D 42261, .one 0x29E 42258,
  .one 0x345 84, ⟨0x371, 0x373, 2, -1⟩, .one 0x377 (-1), ⟨0x37B, 0x37D, 1, 130⟩, .one 0x3AC (-38),
  ⟨0x3AD, 0x3AF, 1, -37⟩, ⟨0x3B1, 0x3C1, 1, -32⟩, .one 0x3C2 (-31), ⟨0x3C3, 0x3CB, 1, -32⟩,
  .one 0x3CC (-64), ⟨0x3CD, 0x3CE, 1, -63⟩, .one 0x3D0 (-62), .one 0x3D1 (-57), .one 0x3D5 (-47),
  .one 0x3D6 (-54), .one 0x3D7 (-8), ⟨0x3D9, 0x3EF, 2, -1⟩, .one 0x3F0 (-86), .one 0x3F1 (-80),
  .one 0x3F2 7, .one 0x3F3 (-116), .one 0x3F5 (-96), .one 0x3F8 (-1), .one 0x3FB (-1),
  ⟨0x430, 0x44F, 1, -32⟩, ⟨0x450, 0x45F, 1, -80⟩, ⟨0x461, 0x481, 2, -1⟩, ⟨0x48B, 0x4BF, 2, -1⟩,
  ⟨0x4C2, 0x4CE, 2, -1⟩, .one 0x4CF (-15), ⟨0x4D1, 0x52F, 2, -1⟩, ⟨0x561, 0x586, 1, -48⟩,
  ⟨0x10D0, 0x10FA, 1, 3008⟩, ⟨0x10FD, 0x10FF, 1, 3008⟩, ⟨0x13F8, 0x13FD, 1, -8⟩,
  .one 0x1C80 (-6254), .one 0x1C81 (-6253), .one 0x1C82 (-6244), ⟨0x1C83, 0x1C84, 1, -6242⟩,
  .one 0x1C85 (-6243), .one 0x1C86 (-6236), .one 0x1C87 (-6181), .one 0x1C88 35266,
  .one 0x1C8A (-1), .one 0x1D79 35332, .one 0x1D7D 3814, .one 0x1D8E 35384, ⟨0x1E01, 0x1E95, 2, -1⟩,
  .one 0x1E9B (-59), ⟨0x1EA1, 0x1EFF, 2, -1⟩, ⟨0x1F00, 0x1F07, 1, 8⟩, ⟨0x1F10, 0x1F15, 1, 8⟩,
  ⟨0x1F20, 0x1F27, 1, 8⟩, ⟨0x1F30, 0x1F37, 1, 8⟩, ⟨0x1F40, 0x1F45, 1, 8⟩, ⟨0x1F51, 0x1F57, 2, 8⟩,
  ⟨0x1F60, 0x1F67, 1, 8⟩, ⟨0x1F70, 0x1F71, 1, 74⟩, ⟨0x1F72, 0x1F75, 1, 86⟩,
  ⟨0x1F76, 0x1F77, 1, 100⟩, ⟨0x1F78, 0x1F79, 1, 128⟩, ⟨0x1F7A, 0x1F7B, 1, 112⟩,
  ⟨0x1F7C, 0x1F7D, 1, 126⟩, ⟨0x1FB0, 0x1FB1, 1, 8⟩, .one 0x1FBE (-7205), ⟨0x1FD0, 0x1FD1, 1, 8⟩,
  ⟨0x1FE0, 0x1FE1, 1, 8⟩, .one 0x1FE5 7, .one 0x214E (-28), ⟨0x2170, 0x217F, 1, -16⟩,
  .one 0x2184 (-1), ⟨0x24D0, 0x24E9, 1, -26⟩, ⟨0x2C30, 0x2C5F, 1, -48⟩, .one 0x2C61 (-1),
  .one 0x2C65 (-10795), .one 0x2C66 (-10792), ⟨0x2C68, 0x2C6C, 2, -1⟩, .one 0x2C73 (-1),
  .one 0x2C76 (-1), ⟨0x2C81, 0x2CE3, 2, -1⟩, ⟨0x2CEC, 0x2CEE, 2, -1⟩, .one 0x2CF3 (-1),
  ⟨0x2D00, 0x2D25, 1, -7264⟩, .one 0x2D27 (-7264), .one 0x2D2D (-7264), ⟨0xA641, 0xA66D, 2, -1⟩,
  ⟨0xA681, 0xA69B, 2, -1⟩, ⟨0xA723, 0xA72F, 2, -1⟩, ⟨0xA733, 0xA76F, 2, -1⟩,
  ⟨0xA77A, 0xA77C, 2, -1⟩, ⟨0xA77F, 0xA787, 2, -1⟩, .one 0xA78C (-1), ⟨0xA791, 0xA793, 2, -1⟩,
  .one 0xA794 48, ⟨0xA797, 0xA7A9, 2, -1⟩, ⟨0xA7B5, 0xA7C3, 2, -1⟩, ⟨0xA7C8, 0xA7CA, 2, -1⟩,
  ⟨0xA7CD, 0xA7DB, 2, -1⟩, .one 0xA7F6 (-1), .one 0xAB53 (-928), ⟨0xAB70, 0xABBF, 1, -38864⟩,
  ⟨0xFF41, 0xFF5A, 1, -32⟩, ⟨0x10428, 0x1044F, 1, -40⟩, ⟨0x104D8, 0x104FB, 1, -40⟩,
  ⟨0x10597, 0x105A1, 1, -39⟩, ⟨0x105A3, 0x105B1, 1, -39⟩, ⟨0x105B3, 0x105B9, 1, -39⟩,
  ⟨0x105BB, 0x105BC, 1, -39⟩, ⟨0x10CC0, 0x10CF2, 1, -64⟩, ⟨0x10D70, 0x10D85, 1, -32⟩,
  ⟨0x118C0, 0x118DF, 1, -32⟩, ⟨0x16E60, 0x16E7F, 1, -32⟩, ⟨0x16EBB, 0x16ED3, 1, -27⟩,
  ⟨0x1E922, 0x1E943, 1, -34⟩]

/-- Lower case beyond ASCII, where it is one character. -/
def lowerRuns : List CaseRun := [
  ⟨0xC0, 0xD6, 1, 32⟩, ⟨0xD8, 0xDE, 1, 32⟩, ⟨0x100, 0x12E, 2, 1⟩, ⟨0x132, 0x136, 2, 1⟩,
  ⟨0x139, 0x147, 2, 1⟩, ⟨0x14A, 0x176, 2, 1⟩, .one 0x178 (-121), ⟨0x179, 0x17D, 2, 1⟩,
  .one 0x181 210, ⟨0x182, 0x184, 2, 1⟩, .one 0x186 206, .one 0x187 1, ⟨0x189, 0x18A, 1, 205⟩,
  .one 0x18B 1, .one 0x18E 79, .one 0x18F 202, .one 0x190 203, .one 0x191 1, .one 0x193 205,
  .one 0x194 207, .one 0x196 211, .one 0x197 209, .one 0x198 1, .one 0x19C 211, .one 0x19D 213,
  .one 0x19F 214, ⟨0x1A0, 0x1A4, 2, 1⟩, .one 0x1A6 218, .one 0x1A7 1, .one 0x1A9 218, .one 0x1AC 1,
  .one 0x1AE 218, .one 0x1AF 1, ⟨0x1B1, 0x1B2, 1, 217⟩, ⟨0x1B3, 0x1B5, 2, 1⟩, .one 0x1B7 219,
  .one 0x1B8 1, .one 0x1BC 1, .one 0x1C4 2, .one 0x1C5 1, .one 0x1C7 2, .one 0x1C8 1, .one 0x1CA 2,
  ⟨0x1CB, 0x1DB, 2, 1⟩, ⟨0x1DE, 0x1EE, 2, 1⟩, .one 0x1F1 2, ⟨0x1F2, 0x1F4, 2, 1⟩, .one 0x1F6 (-97),
  .one 0x1F7 (-56), ⟨0x1F8, 0x21E, 2, 1⟩, .one 0x220 (-130), ⟨0x222, 0x232, 2, 1⟩, .one 0x23A 10795,
  .one 0x23B 1, .one 0x23D (-163), .one 0x23E 10792, .one 0x241 1, .one 0x243 (-195), .one 0x244 69,
  .one 0x245 71, ⟨0x246, 0x24E, 2, 1⟩, ⟨0x370, 0x372, 2, 1⟩, .one 0x376 1, .one 0x37F 116,
  .one 0x386 38, ⟨0x388, 0x38A, 1, 37⟩, .one 0x38C 64, ⟨0x38E, 0x38F, 1, 63⟩, ⟨0x391, 0x3A1, 1, 32⟩,
  ⟨0x3A3, 0x3AB, 1, 32⟩, .one 0x3CF 8, ⟨0x3D8, 0x3EE, 2, 1⟩, .one 0x3F4 (-60), .one 0x3F7 1,
  .one 0x3F9 (-7), .one 0x3FA 1, ⟨0x3FD, 0x3FF, 1, -130⟩, ⟨0x400, 0x40F, 1, 80⟩,
  ⟨0x410, 0x42F, 1, 32⟩, ⟨0x460, 0x480, 2, 1⟩, ⟨0x48A, 0x4BE, 2, 1⟩, .one 0x4C0 15,
  ⟨0x4C1, 0x4CD, 2, 1⟩, ⟨0x4D0, 0x52E, 2, 1⟩, ⟨0x531, 0x556, 1, 48⟩, ⟨0x10A0, 0x10C5, 1, 7264⟩,
  .one 0x10C7 7264, .one 0x10CD 7264, ⟨0x13A0, 0x13EF, 1, 38864⟩, ⟨0x13F0, 0x13F5, 1, 8⟩,
  .one 0x1C89 1, ⟨0x1C90, 0x1CBA, 1, -3008⟩, ⟨0x1CBD, 0x1CBF, 1, -3008⟩, ⟨0x1E00, 0x1E94, 2, 1⟩,
  .one 0x1E9E (-7615), ⟨0x1EA0, 0x1EFE, 2, 1⟩, ⟨0x1F08, 0x1F0F, 1, -8⟩, ⟨0x1F18, 0x1F1D, 1, -8⟩,
  ⟨0x1F28, 0x1F2F, 1, -8⟩, ⟨0x1F38, 0x1F3F, 1, -8⟩, ⟨0x1F48, 0x1F4D, 1, -8⟩,
  ⟨0x1F59, 0x1F5F, 2, -8⟩, ⟨0x1F68, 0x1F6F, 1, -8⟩, ⟨0x1F88, 0x1F8F, 1, -8⟩,
  ⟨0x1F98, 0x1F9F, 1, -8⟩, ⟨0x1FA8, 0x1FAF, 1, -8⟩, ⟨0x1FB8, 0x1FB9, 1, -8⟩,
  ⟨0x1FBA, 0x1FBB, 1, -74⟩, .one 0x1FBC (-9), ⟨0x1FC8, 0x1FCB, 1, -86⟩, .one 0x1FCC (-9),
  ⟨0x1FD8, 0x1FD9, 1, -8⟩, ⟨0x1FDA, 0x1FDB, 1, -100⟩, ⟨0x1FE8, 0x1FE9, 1, -8⟩,
  ⟨0x1FEA, 0x1FEB, 1, -112⟩, .one 0x1FEC (-7), ⟨0x1FF8, 0x1FF9, 1, -128⟩, ⟨0x1FFA, 0x1FFB, 1, -126⟩,
  .one 0x1FFC (-9), .one 0x2126 (-7517), .one 0x212A (-8383), .one 0x212B (-8262), .one 0x2132 28,
  ⟨0x2160, 0x216F, 1, 16⟩, .one 0x2183 1, ⟨0x24B6, 0x24CF, 1, 26⟩, ⟨0x2C00, 0x2C2F, 1, 48⟩,
  .one 0x2C60 1, .one 0x2C62 (-10743), .one 0x2C63 (-3814), .one 0x2C64 (-10727),
  ⟨0x2C67, 0x2C6B, 2, 1⟩, .one 0x2C6D (-10780), .one 0x2C6E (-10749), .one 0x2C6F (-10783),
  .one 0x2C70 (-10782), .one 0x2C72 1, .one 0x2C75 1, ⟨0x2C7E, 0x2C7F, 1, -10815⟩,
  ⟨0x2C80, 0x2CE2, 2, 1⟩, ⟨0x2CEB, 0x2CED, 2, 1⟩, .one 0x2CF2 1, ⟨0xA640, 0xA66C, 2, 1⟩,
  ⟨0xA680, 0xA69A, 2, 1⟩, ⟨0xA722, 0xA72E, 2, 1⟩, ⟨0xA732, 0xA76E, 2, 1⟩, ⟨0xA779, 0xA77B, 2, 1⟩,
  .one 0xA77D (-35332), ⟨0xA77E, 0xA786, 2, 1⟩, .one 0xA78B 1, .one 0xA78D (-42280),
  ⟨0xA790, 0xA792, 2, 1⟩, ⟨0xA796, 0xA7A8, 2, 1⟩, .one 0xA7AA (-42308), .one 0xA7AB (-42319),
  .one 0xA7AC (-42315), .one 0xA7AD (-42305), .one 0xA7AE (-42308), .one 0xA7B0 (-42258),
  .one 0xA7B1 (-42282), .one 0xA7B2 (-42261), .one 0xA7B3 928, ⟨0xA7B4, 0xA7C2, 2, 1⟩,
  .one 0xA7C4 (-48), .one 0xA7C5 (-42307), .one 0xA7C6 (-35384), ⟨0xA7C7, 0xA7C9, 2, 1⟩,
  .one 0xA7CB (-42343), ⟨0xA7CC, 0xA7DA, 2, 1⟩, .one 0xA7DC (-42561), .one 0xA7F5 1,
  ⟨0xFF21, 0xFF3A, 1, 32⟩, ⟨0x10400, 0x10427, 1, 40⟩, ⟨0x104B0, 0x104D3, 1, 40⟩,
  ⟨0x10570, 0x1057A, 1, 39⟩, ⟨0x1057C, 0x1058A, 1, 39⟩, ⟨0x1058C, 0x10592, 1, 39⟩,
  ⟨0x10594, 0x10595, 1, 39⟩, ⟨0x10C80, 0x10CB2, 1, 64⟩, ⟨0x10D50, 0x10D65, 1, 32⟩,
  ⟨0x118A0, 0x118BF, 1, 32⟩, ⟨0x16E40, 0x16E5F, 1, 32⟩, ⟨0x16EA0, 0x16EB8, 1, 27⟩,
  ⟨0x1E900, 0x1E921, 1, 34⟩]

/-- Upper case that takes several characters. -/
def upperExpansions : List (Nat × List Nat) := [
  (0xDF, [0x53, 0x53]), (0x149, [0x2BC, 0x4E]), (0x1F0, [0x4A, 0x30C]),
  (0x390, [0x399, 0x308, 0x301]), (0x3B0, [0x3A5, 0x308, 0x301]), (0x587, [0x535, 0x552]),
  (0x1E96, [0x48, 0x331]), (0x1E97, [0x54, 0x308]), (0x1E98, [0x57, 0x30A]),
  (0x1E99, [0x59, 0x30A]), (0x1E9A, [0x41, 0x2BE]), (0x1F50, [0x3A5, 0x313]),
  (0x1F52, [0x3A5, 0x313, 0x300]), (0x1F54, [0x3A5, 0x313, 0x301]),
  (0x1F56, [0x3A5, 0x313, 0x342]), (0x1F80, [0x1F08, 0x399]), (0x1F81, [0x1F09, 0x399]),
  (0x1F82, [0x1F0A, 0x399]), (0x1F83, [0x1F0B, 0x399]), (0x1F84, [0x1F0C, 0x399]),
  (0x1F85, [0x1F0D, 0x399]), (0x1F86, [0x1F0E, 0x399]), (0x1F87, [0x1F0F, 0x399]),
  (0x1F88, [0x1F08, 0x399]), (0x1F89, [0x1F09, 0x399]), (0x1F8A, [0x1F0A, 0x399]),
  (0x1F8B, [0x1F0B, 0x399]), (0x1F8C, [0x1F0C, 0x399]), (0x1F8D, [0x1F0D, 0x399]),
  (0x1F8E, [0x1F0E, 0x399]), (0x1F8F, [0x1F0F, 0x399]), (0x1F90, [0x1F28, 0x399]),
  (0x1F91, [0x1F29, 0x399]), (0x1F92, [0x1F2A, 0x399]), (0x1F93, [0x1F2B, 0x399]),
  (0x1F94, [0x1F2C, 0x399]), (0x1F95, [0x1F2D, 0x399]), (0x1F96, [0x1F2E, 0x399]),
  (0x1F97, [0x1F2F, 0x399]), (0x1F98, [0x1F28, 0x399]), (0x1F99, [0x1F29, 0x399]),
  (0x1F9A, [0x1F2A, 0x399]), (0x1F9B, [0x1F2B, 0x399]), (0x1F9C, [0x1F2C, 0x399]),
  (0x1F9D, [0x1F2D, 0x399]), (0x1F9E, [0x1F2E, 0x399]), (0x1F9F, [0x1F2F, 0x399]),
  (0x1FA0, [0x1F68, 0x399]), (0x1FA1, [0x1F69, 0x399]), (0x1FA2, [0x1F6A, 0x399]),
  (0x1FA3, [0x1F6B, 0x399]), (0x1FA4, [0x1F6C, 0x399]), (0x1FA5, [0x1F6D, 0x399]),
  (0x1FA6, [0x1F6E, 0x399]), (0x1FA7, [0x1F6F, 0x399]), (0x1FA8, [0x1F68, 0x399]),
  (0x1FA9, [0x1F69, 0x399]), (0x1FAA, [0x1F6A, 0x399]), (0x1FAB, [0x1F6B, 0x399]),
  (0x1FAC, [0x1F6C, 0x399]), (0x1FAD, [0x1F6D, 0x399]), (0x1FAE, [0x1F6E, 0x399]),
  (0x1FAF, [0x1F6F, 0x399]), (0x1FB2, [0x1FBA, 0x399]), (0x1FB3, [0x391, 0x399]),
  (0x1FB4, [0x386, 0x399]), (0x1FB6, [0x391, 0x342]), (0x1FB7, [0x391, 0x342, 0x399]),
  (0x1FBC, [0x391, 0x399]), (0x1FC2, [0x1FCA, 0x399]), (0x1FC3, [0x397, 0x399]),
  (0x1FC4, [0x389, 0x399]), (0x1FC6, [0x397, 0x342]), (0x1FC7, [0x397, 0x342, 0x399]),
  (0x1FCC, [0x397, 0x399]), (0x1FD2, [0x399, 0x308, 0x300]), (0x1FD3, [0x399, 0x308, 0x301]),
  (0x1FD6, [0x399, 0x342]), (0x1FD7, [0x399, 0x308, 0x342]), (0x1FE2, [0x3A5, 0x308, 0x300]),
  (0x1FE3, [0x3A5, 0x308, 0x301]), (0x1FE4, [0x3A1, 0x313]), (0x1FE6, [0x3A5, 0x342]),
  (0x1FE7, [0x3A5, 0x308, 0x342]), (0x1FF2, [0x1FFA, 0x399]), (0x1FF3, [0x3A9, 0x399]),
  (0x1FF4, [0x38F, 0x399]), (0x1FF6, [0x3A9, 0x342]), (0x1FF7, [0x3A9, 0x342, 0x399]),
  (0x1FFC, [0x3A9, 0x399]), (0xFB00, [0x46, 0x46]), (0xFB01, [0x46, 0x49]),
  (0xFB02, [0x46, 0x4C]), (0xFB03, [0x46, 0x46, 0x49]), (0xFB04, [0x46, 0x46, 0x4C]),
  (0xFB05, [0x53, 0x54]), (0xFB06, [0x53, 0x54]), (0xFB13, [0x544, 0x546]),
  (0xFB14, [0x544, 0x535]), (0xFB15, [0x544, 0x53B]), (0xFB16, [0x54E, 0x546]),
  (0xFB17, [0x544, 0x53D])]

/-- Cased characters beyond ASCII. -/
def casedRanges : List (Nat × Nat) := [
  one 0xAA, one 0xB5, one 0xBA, (0xC0, 0xD6), (0xD8, 0xF6), (0xF8, 0x1BA), (0x1BC, 0x1BF),
  (0x1C4, 0x293), (0x296, 0x2B8), (0x2C0, 0x2C1), (0x2E0, 0x2E4), one 0x345, (0x370, 0x373),
  (0x376, 0x377), (0x37A, 0x37D), one 0x37F, one 0x386, (0x388, 0x38A), one 0x38C, (0x38E, 0x3A1),
  (0x3A3, 0x3F5), (0x3F7, 0x481), (0x48A, 0x52F), (0x531, 0x556), (0x560, 0x588), (0x10A0, 0x10C5),
  one 0x10C7, one 0x10CD, (0x10D0, 0x10FA), (0x10FC, 0x10FF), (0x13A0, 0x13F5), (0x13F8, 0x13FD),
  (0x1C80, 0x1C8A), (0x1C90, 0x1CBA), (0x1CBD, 0x1CBF), (0x1D00, 0x1DBF), (0x1E00, 0x1F15),
  (0x1F18, 0x1F1D), (0x1F20, 0x1F45), (0x1F48, 0x1F4D), (0x1F50, 0x1F57), one 0x1F59, one 0x1F5B,
  one 0x1F5D, (0x1F5F, 0x1F7D), (0x1F80, 0x1FB4), (0x1FB6, 0x1FBC), one 0x1FBE, (0x1FC2, 0x1FC4),
  (0x1FC6, 0x1FCC), (0x1FD0, 0x1FD3), (0x1FD6, 0x1FDB), (0x1FE0, 0x1FEC), (0x1FF2, 0x1FF4),
  (0x1FF6, 0x1FFC), one 0x2071, one 0x207F, (0x2090, 0x209C), one 0x2102, one 0x2107,
  (0x210A, 0x2113), one 0x2115, (0x2119, 0x211D), one 0x2124, one 0x2126, one 0x2128,
  (0x212A, 0x212D), (0x212F, 0x2134), one 0x2139, (0x213C, 0x213F), (0x2145, 0x2149), one 0x214E,
  (0x2160, 0x217F), (0x2183, 0x2184), (0x24B6, 0x24E9), (0x2C00, 0x2CE4), (0x2CEB, 0x2CEE),
  (0x2CF2, 0x2CF3), (0x2D00, 0x2D25), one 0x2D27, one 0x2D2D, (0xA640, 0xA66D), (0xA680, 0xA69D),
  (0xA722, 0xA787), (0xA78B, 0xA78E), (0xA790, 0xA7DC), (0xA7F1, 0xA7F6), (0xA7F8, 0xA7FA),
  (0xAB30, 0xAB5A), (0xAB5C, 0xAB69), (0xAB70, 0xABBF), (0xFB00, 0xFB06), (0xFB13, 0xFB17),
  (0xFF21, 0xFF3A), (0xFF41, 0xFF5A), (0x10400, 0x1044F), (0x104B0, 0x104D3), (0x104D8, 0x104FB),
  (0x10570, 0x1057A), (0x1057C, 0x1058A), (0x1058C, 0x10592), (0x10594, 0x10595),
  (0x10597, 0x105A1), (0x105A3, 0x105B1), (0x105B3, 0x105B9), (0x105BB, 0x105BC), one 0x10780,
  (0x10783, 0x10785), (0x10787, 0x107B0), (0x107B2, 0x107BA), (0x10C80, 0x10CB2),
  (0x10CC0, 0x10CF2), (0x10D50, 0x10D65), (0x10D70, 0x10D85), (0x118A0, 0x118DF),
  (0x16E40, 0x16E7F), (0x16EA0, 0x16EB8), (0x16EBB, 0x16ED3), (0x1D400, 0x1D454),
  (0x1D456, 0x1D49C), (0x1D49E, 0x1D49F), one 0x1D4A2, (0x1D4A5, 0x1D4A6), (0x1D4A9, 0x1D4AC),
  (0x1D4AE, 0x1D4B9), one 0x1D4BB, (0x1D4BD, 0x1D4C3), (0x1D4C5, 0x1D505), (0x1D507, 0x1D50A),
  (0x1D50D, 0x1D514), (0x1D516, 0x1D51C), (0x1D51E, 0x1D539), (0x1D53B, 0x1D53E),
  (0x1D540, 0x1D544), one 0x1D546, (0x1D54A, 0x1D550), (0x1D552, 0x1D6A5), (0x1D6A8, 0x1D6C0),
  (0x1D6C2, 0x1D6DA), (0x1D6DC, 0x1D6FA), (0x1D6FC, 0x1D714), (0x1D716, 0x1D734),
  (0x1D736, 0x1D74E), (0x1D750, 0x1D76E), (0x1D770, 0x1D788), (0x1D78A, 0x1D7A8),
  (0x1D7AA, 0x1D7C2), (0x1D7C4, 0x1D7CB), (0x1DF00, 0x1DF09), (0x1DF0B, 0x1DF1E),
  (0x1DF25, 0x1DF2A), (0x1E030, 0x1E06D), (0x1E900, 0x1E943), (0x1F130, 0x1F149),
  (0x1F150, 0x1F169), (0x1F170, 0x1F189)]

/-- Characters that case conditions look through, ASCII included. -/
def caseIgnorableRanges : List (Nat × Nat) := [
  one 0x27, one 0x2E, one 0x3A, one 0x5E, one 0x60, one 0xA8, one 0xAD, one 0xAF, one 0xB4,
  (0xB7, 0xB8), (0x2B0, 0x36F), (0x374, 0x375), one 0x37A, (0x384, 0x385), one 0x387,
  (0x483, 0x489), one 0x559, one 0x55F, (0x591, 0x5BD), one 0x5BF, (0x5C1, 0x5C2), (0x5C4, 0x5C5),
  one 0x5C7, one 0x5F4, (0x600, 0x605), (0x610, 0x61A), one 0x61C, one 0x640, (0x64B, 0x65F),
  one 0x670, (0x6D6, 0x6DD), (0x6DF, 0x6E8), (0x6EA, 0x6ED), one 0x70F, one 0x711, (0x730, 0x74A),
  (0x7A6, 0x7B0), (0x7EB, 0x7F5), one 0x7FA, one 0x7FD, (0x816, 0x82D), (0x859, 0x85B), one 0x888,
  (0x890, 0x891), (0x897, 0x89F), (0x8C9, 0x902), one 0x93A, one 0x93C, (0x941, 0x948), one 0x94D,
  (0x951, 0x957), (0x962, 0x963), one 0x971, one 0x981, one 0x9BC, (0x9C1, 0x9C4), one 0x9CD,
  (0x9E2, 0x9E3), one 0x9FE, (0xA01, 0xA02), one 0xA3C, (0xA41, 0xA42), (0xA47, 0xA48),
  (0xA4B, 0xA4D), one 0xA51, (0xA70, 0xA71), one 0xA75, (0xA81, 0xA82), one 0xABC, (0xAC1, 0xAC5),
  (0xAC7, 0xAC8), one 0xACD, (0xAE2, 0xAE3), (0xAFA, 0xAFF), one 0xB01, one 0xB3C, one 0xB3F,
  (0xB41, 0xB44), one 0xB4D, (0xB55, 0xB56), (0xB62, 0xB63), one 0xB82, one 0xBC0, one 0xBCD,
  one 0xC00, one 0xC04, one 0xC3C, (0xC3E, 0xC40), (0xC46, 0xC48), (0xC4A, 0xC4D), (0xC55, 0xC56),
  (0xC62, 0xC63), one 0xC81, one 0xCBC, one 0xCBF, one 0xCC6, (0xCCC, 0xCCD), (0xCE2, 0xCE3),
  (0xD00, 0xD01), (0xD3B, 0xD3C), (0xD41, 0xD44), one 0xD4D, (0xD62, 0xD63), one 0xD81, one 0xDCA,
  (0xDD2, 0xDD4), one 0xDD6, one 0xE31, (0xE34, 0xE3A), (0xE46, 0xE4E), one 0xEB1, (0xEB4, 0xEBC),
  one 0xEC6, (0xEC8, 0xECE), (0xF18, 0xF19), one 0xF35, one 0xF37, one 0xF39, (0xF71, 0xF7E),
  (0xF80, 0xF84), (0xF86, 0xF87), (0xF8D, 0xF97), (0xF99, 0xFBC), one 0xFC6, (0x102D, 0x1030),
  (0x1032, 0x1037), (0x1039, 0x103A), (0x103D, 0x103E), (0x1058, 0x1059), (0x105E, 0x1060),
  (0x1071, 0x1074), one 0x1082, (0x1085, 0x1086), one 0x108D, one 0x109D, one 0x10FC,
  (0x135D, 0x135F), (0x1712, 0x1714), (0x1732, 0x1733), (0x1752, 0x1753), (0x1772, 0x1773),
  (0x17B4, 0x17B5), (0x17B7, 0x17BD), one 0x17C6, (0x17C9, 0x17D3), one 0x17D7, one 0x17DD,
  (0x180B, 0x180F), one 0x1843, (0x1885, 0x1886), one 0x18A9, (0x1920, 0x1922), (0x1927, 0x1928),
  one 0x1932, (0x1939, 0x193B), (0x1A17, 0x1A18), one 0x1A1B, one 0x1A56, (0x1A58, 0x1A5E),
  one 0x1A60, one 0x1A62, (0x1A65, 0x1A6C), (0x1A73, 0x1A7C), one 0x1A7F, one 0x1AA7,
  (0x1AB0, 0x1ADD), (0x1AE0, 0x1AEB), (0x1B00, 0x1B03), one 0x1B34, (0x1B36, 0x1B3A), one 0x1B3C,
  one 0x1B42, (0x1B6B, 0x1B73), (0x1B80, 0x1B81), (0x1BA2, 0x1BA5), (0x1BA8, 0x1BA9),
  (0x1BAB, 0x1BAD), one 0x1BE6, (0x1BE8, 0x1BE9), one 0x1BED, (0x1BEF, 0x1BF1), (0x1C2C, 0x1C33),
  (0x1C36, 0x1C37), (0x1C78, 0x1C7D), (0x1CD0, 0x1CD2), (0x1CD4, 0x1CE0), (0x1CE2, 0x1CE8),
  one 0x1CED, one 0x1CF4, (0x1CF8, 0x1CF9), (0x1D2C, 0x1D6A), one 0x1D78, (0x1D9B, 0x1DFF),
  one 0x1FBD, (0x1FBF, 0x1FC1), (0x1FCD, 0x1FCF), (0x1FDD, 0x1FDF), (0x1FED, 0x1FEF),
  (0x1FFD, 0x1FFE), (0x200B, 0x200F), (0x2018, 0x2019), one 0x2024, one 0x2027, (0x202A, 0x202E),
  (0x2060, 0x2064), (0x2066, 0x206F), one 0x2071, one 0x207F, (0x2090, 0x209C), (0x20D0, 0x20F0),
  (0x2C7C, 0x2C7D), (0x2CEF, 0x2CF1), one 0x2D6F, one 0x2D7F, (0x2DE0, 0x2DFF), one 0x2E2F,
  one 0x3005, (0x302A, 0x302D), (0x3031, 0x3035), one 0x303B, (0x3099, 0x309E), (0x30FC, 0x30FE),
  one 0xA015, (0xA4F8, 0xA4FD), one 0xA60C, (0xA66F, 0xA672), (0xA674, 0xA67D), one 0xA67F,
  (0xA69C, 0xA69F), (0xA6F0, 0xA6F1), (0xA700, 0xA721), one 0xA770, (0xA788, 0xA78A),
  (0xA7F1, 0xA7F4), (0xA7F8, 0xA7F9), one 0xA802, one 0xA806, one 0xA80B, (0xA825, 0xA826),
  one 0xA82C, (0xA8C4, 0xA8C5), (0xA8E0, 0xA8F1), one 0xA8FF, (0xA926, 0xA92D), (0xA947, 0xA951),
  (0xA980, 0xA982), one 0xA9B3, (0xA9B6, 0xA9B9), (0xA9BC, 0xA9BD), one 0xA9CF, (0xA9E5, 0xA9E6),
  (0xAA29, 0xAA2E), (0xAA31, 0xAA32), (0xAA35, 0xAA36), one 0xAA43, one 0xAA4C, one 0xAA70,
  one 0xAA7C, one 0xAAB0, (0xAAB2, 0xAAB4), (0xAAB7, 0xAAB8), (0xAABE, 0xAABF), one 0xAAC1,
  one 0xAADD, (0xAAEC, 0xAAED), (0xAAF3, 0xAAF4), one 0xAAF6, (0xAB5B, 0xAB5F), (0xAB69, 0xAB6B),
  one 0xABE5, one 0xABE8, one 0xABED, one 0xFB1E, (0xFBB2, 0xFBC2), (0xFE00, 0xFE0F), one 0xFE13,
  (0xFE20, 0xFE2F), one 0xFE52, one 0xFE55, one 0xFEFF, one 0xFF07, one 0xFF0E, one 0xFF1A,
  one 0xFF3E, one 0xFF40, one 0xFF70, (0xFF9E, 0xFF9F), one 0xFFE3, (0xFFF9, 0xFFFB), one 0x101FD,
  one 0x102E0, (0x10376, 0x1037A), (0x10780, 0x10785), (0x10787, 0x107B0), (0x107B2, 0x107BA),
  (0x10A01, 0x10A03), (0x10A05, 0x10A06), (0x10A0C, 0x10A0F), (0x10A38, 0x10A3A), one 0x10A3F,
  (0x10AE5, 0x10AE6), (0x10D24, 0x10D27), one 0x10D4E, (0x10D69, 0x10D6D), one 0x10D6F,
  (0x10EAB, 0x10EAC), one 0x10EC5, (0x10EFA, 0x10EFF), (0x10F46, 0x10F50), (0x10F82, 0x10F85),
  one 0x11001, (0x11038, 0x11046), one 0x11070, (0x11073, 0x11074), (0x1107F, 0x11081),
  (0x110B3, 0x110B6), (0x110B9, 0x110BA), one 0x110BD, one 0x110C2, one 0x110CD, (0x11100, 0x11102),
  (0x11127, 0x1112B), (0x1112D, 0x11134), one 0x11173, (0x11180, 0x11181), (0x111B6, 0x111BE),
  (0x111C9, 0x111CC), one 0x111CF, (0x1122F, 0x11231), one 0x11234, (0x11236, 0x11237), one 0x1123E,
  one 0x11241, one 0x112DF, (0x112E3, 0x112EA), (0x11300, 0x11301), (0x1133B, 0x1133C), one 0x11340,
  (0x11366, 0x1136C), (0x11370, 0x11374), (0x113BB, 0x113C0), one 0x113CE, one 0x113D0, one 0x113D2,
  (0x113E1, 0x113E2), (0x11438, 0x1143F), (0x11442, 0x11444), one 0x11446, one 0x1145E,
  (0x114B3, 0x114B8), one 0x114BA, (0x114BF, 0x114C0), (0x114C2, 0x114C3), (0x115B2, 0x115B5),
  (0x115BC, 0x115BD), (0x115BF, 0x115C0), (0x115DC, 0x115DD), (0x11633, 0x1163A), one 0x1163D,
  (0x1163F, 0x11640), one 0x116AB, one 0x116AD, (0x116B0, 0x116B5), one 0x116B7, one 0x1171D,
  one 0x1171F, (0x11722, 0x11725), (0x11727, 0x1172B), (0x1182F, 0x11837), (0x11839, 0x1183A),
  (0x1193B, 0x1193C), one 0x1193E, one 0x11943, (0x119D4, 0x119D7), (0x119DA, 0x119DB), one 0x119E0,
  (0x11A01, 0x11A0A), (0x11A33, 0x11A38), (0x11A3B, 0x11A3E), one 0x11A47, (0x11A51, 0x11A56),
  (0x11A59, 0x11A5B), (0x11A8A, 0x11A96), (0x11A98, 0x11A99), one 0x11B60, (0x11B62, 0x11B64),
  one 0x11B66, (0x11C30, 0x11C36), (0x11C38, 0x11C3D), one 0x11C3F, (0x11C92, 0x11CA7),
  (0x11CAA, 0x11CB0), (0x11CB2, 0x11CB3), (0x11CB5, 0x11CB6), (0x11D31, 0x11D36), one 0x11D3A,
  (0x11D3C, 0x11D3D), (0x11D3F, 0x11D45), one 0x11D47, (0x11D90, 0x11D91), one 0x11D95, one 0x11D97,
  one 0x11DD9, (0x11EF3, 0x11EF4), (0x11F00, 0x11F01), (0x11F36, 0x11F3A), one 0x11F40, one 0x11F42,
  one 0x11F5A, (0x13430, 0x13440), (0x13447, 0x13455), (0x1611E, 0x16129), (0x1612D, 0x1612F),
  (0x16AF0, 0x16AF4), (0x16B30, 0x16B36), (0x16B40, 0x16B43), (0x16D40, 0x16D42),
  (0x16D6B, 0x16D6C), one 0x16F4F, (0x16F8F, 0x16F9F), (0x16FE0, 0x16FE1), (0x16FE3, 0x16FE4),
  (0x16FF2, 0x16FF3), (0x1AFF0, 0x1AFF3), (0x1AFF5, 0x1AFFB), (0x1AFFD, 0x1AFFE),
  (0x1BC9D, 0x1BC9E), (0x1BCA0, 0x1BCA3), (0x1CF00, 0x1CF2D), (0x1CF30, 0x1CF46),
  (0x1D167, 0x1D169), (0x1D173, 0x1D182), (0x1D185, 0x1D18B), (0x1D1AA, 0x1D1AD),
  (0x1D242, 0x1D244), (0x1DA00, 0x1DA36), (0x1DA3B, 0x1DA6C), one 0x1DA75, one 0x1DA84,
  (0x1DA9B, 0x1DA9F), (0x1DAA1, 0x1DAAF), (0x1E000, 0x1E006), (0x1E008, 0x1E018),
  (0x1E01B, 0x1E021), (0x1E023, 0x1E024), (0x1E026, 0x1E02A), (0x1E030, 0x1E06D), one 0x1E08F,
  (0x1E130, 0x1E13D), one 0x1E2AE, (0x1E2EC, 0x1E2EF), (0x1E4EB, 0x1E4EF), (0x1E5EE, 0x1E5EF),
  one 0x1E6E3, one 0x1E6E6, (0x1E6EE, 0x1E6EF), one 0x1E6F5, one 0x1E6FF, (0x1E8D0, 0x1E8D6),
  (0x1E944, 0x1E94B), (0x1F3FB, 0x1F3FF), one 0xE0001, (0xE0020, 0xE007F), (0xE0100, 0xE01EF)]

def isCased (c : Char) : Bool :=
  if c.toNat < 128 then c.isAlpha else inRanges casedRanges c

def isCaseIgnorable (c : Char) : Bool := inRanges caseIgnorableRanges c

def shiftBy (runs : List CaseRun) (c : Char) : Char :=
  match runs.find? (·.covers c.toNat) with
  | some r => Char.ofNat (c.toNat + r.shift).toNat
  | none => c

def upperChar (c : Char) : List Char :=
  if c.toNat < 128 then [c.toUpper]
  else match upperExpansions.lookup c.toNat with
    | some codes => codes.map Char.ofNat
    | none => [shiftBy upperRuns c]

/-- The capital I with a dot keeps its dot as a combining mark. -/
def lowerChar (c : Char) : List Char :=
  if c.toNat < 128 then [c.toLower]
  else if c.toNat = 0x130 then ['i', Char.ofNat 0x307]
  else [shiftBy lowerRuns c]

def upper (s : List Char) : List Char := s.flatMap upperChar

/-- Is the first character that case conditions do not look through a cased one? -/
def meetsCased (s : List Char) : Bool :=
  match s.dropWhile isCaseIgnorable with
  | c :: _ => isCased c
  | [] => false

/-- Lower case of `rest`, which follows the characters `before` (nearest first). -/
def lowerFrom (before : List Char) : List Char → List Char
  | [] => []
  | c :: rest =>
    let low :=
      if c.toNat = 0x3A3 then
        if meetsCased before && !meetsCased rest then [Char.ofNat 0x3C2] else [Char.ofNat 0x3C3]
      else lowerChar c
    low ++ lowerFrom (c :: before) rest

def lower (s : List Char) : List Char := lowerFrom [] s

end Scratchpad.Text
