/-!
# Tables for domain names

How the characters of domain names are folded, by code points. A run maps code points at equal
distances; single characters and their plain forms are listed in pairs. Characters in none of the
tables stay as they are.
-/

namespace Stencil.Url.Folding

/-- `count` code points from `first` on, each `stride` behind the one before; they map to
code points from `target` on, each `step` behind the one before. -/
structure Run where
  first : Nat
  count : Nat
  stride : Nat
  target : Nat
  step : Nat
  deriving Repr, DecidableEq

/-- Capital letters and other characters that map to one character, in runs. -/
def runs : List Run := [
    ⟨0x00c0, 23, 1, 0x00e0, 1⟩, ⟨0x00d8, 7, 1, 0x00f8, 1⟩, ⟨0x0100, 24, 2, 0x0101, 2⟩,
    ⟨0x0134, 2, 2, 0x0135, 2⟩, ⟨0x0139, 3, 2, 0x013a, 2⟩, ⟨0x0141, 4, 2, 0x0142, 2⟩,
    ⟨0x014a, 23, 2, 0x014b, 2⟩, ⟨0x0178, 1, 1, 0x00ff, 1⟩, ⟨0x0179, 3, 2, 0x017a, 2⟩,
    ⟨0x0181, 1, 1, 0x0253, 1⟩, ⟨0x0182, 2, 2, 0x0183, 2⟩, ⟨0x0186, 1, 1, 0x0254, 1⟩,
    ⟨0x0187, 1, 1, 0x0188, 1⟩, ⟨0x0189, 2, 1, 0x0256, 1⟩, ⟨0x018b, 1, 1, 0x018c, 1⟩,
    ⟨0x018e, 1, 1, 0x01dd, 1⟩, ⟨0x018f, 1, 1, 0x0259, 1⟩, ⟨0x0190, 1, 1, 0x025b, 1⟩,
    ⟨0x0191, 1, 1, 0x0192, 1⟩, ⟨0x0193, 1, 1, 0x0260, 1⟩, ⟨0x0194, 1, 1, 0x0263, 1⟩,
    ⟨0x0196, 1, 1, 0x0269, 1⟩, ⟨0x0197, 1, 1, 0x0268, 1⟩, ⟨0x0198, 1, 1, 0x0199, 1⟩,
    ⟨0x019c, 1, 1, 0x026f, 1⟩, ⟨0x019d, 1, 1, 0x0272, 1⟩, ⟨0x019f, 1, 1, 0x0275, 1⟩,
    ⟨0x01a0, 3, 2, 0x01a1, 2⟩, ⟨0x01a6, 1, 1, 0x0280, 1⟩, ⟨0x01a7, 1, 1, 0x01a8, 1⟩,
    ⟨0x01a9, 1, 1, 0x0283, 1⟩, ⟨0x01ac, 1, 1, 0x01ad, 1⟩, ⟨0x01ae, 1, 1, 0x0288, 1⟩,
    ⟨0x01af, 1, 1, 0x01b0, 1⟩, ⟨0x01b1, 2, 1, 0x028a, 1⟩, ⟨0x01b3, 2, 2, 0x01b4, 2⟩,
    ⟨0x01b7, 1, 1, 0x0292, 1⟩, ⟨0x01b8, 1, 1, 0x01b9, 1⟩, ⟨0x01bc, 1, 1, 0x01bd, 1⟩,
    ⟨0x01cd, 8, 2, 0x01ce, 2⟩, ⟨0x01de, 9, 2, 0x01df, 2⟩, ⟨0x01f4, 1, 1, 0x01f5, 1⟩,
    ⟨0x01f6, 1, 1, 0x0195, 1⟩, ⟨0x01f7, 1, 1, 0x01bf, 1⟩, ⟨0x01f8, 20, 2, 0x01f9, 2⟩,
    ⟨0x0220, 1, 1, 0x019e, 1⟩, ⟨0x0222, 9, 2, 0x0223, 2⟩, ⟨0x023a, 1, 1, 0x2c65, 1⟩,
    ⟨0x023b, 1, 1, 0x023c, 1⟩, ⟨0x023d, 1, 1, 0x019a, 1⟩, ⟨0x023e, 1, 1, 0x2c66, 1⟩,
    ⟨0x0241, 1, 1, 0x0242, 1⟩, ⟨0x0243, 1, 1, 0x0180, 1⟩, ⟨0x0244, 1, 1, 0x0289, 1⟩,
    ⟨0x0245, 1, 1, 0x028c, 1⟩, ⟨0x0246, 5, 2, 0x0247, 2⟩, ⟨0x0370, 2, 2, 0x0371, 2⟩,
    ⟨0x0376, 1, 1, 0x0377, 1⟩, ⟨0x037f, 1, 1, 0x03f3, 1⟩, ⟨0x0386, 1, 1, 0x03ac, 1⟩,
    ⟨0x0388, 3, 1, 0x03ad, 1⟩, ⟨0x038c, 1, 1, 0x03cc, 1⟩, ⟨0x038e, 2, 1, 0x03cd, 1⟩,
    ⟨0x0391, 17, 1, 0x03b1, 1⟩, ⟨0x03a3, 9, 1, 0x03c3, 1⟩, ⟨0x03cf, 1, 1, 0x03d7, 1⟩,
    ⟨0x03d8, 12, 2, 0x03d9, 2⟩, ⟨0x03f4, 1, 1, 0x03b8, 1⟩, ⟨0x03f7, 1, 1, 0x03f8, 1⟩,
    ⟨0x03fa, 1, 1, 0x03fb, 1⟩, ⟨0x03fd, 3, 1, 0x037b, 1⟩, ⟨0x0400, 16, 1, 0x0450, 1⟩,
    ⟨0x0410, 32, 1, 0x0430, 1⟩, ⟨0x0460, 17, 2, 0x0461, 2⟩, ⟨0x048a, 27, 2, 0x048b, 2⟩,
    ⟨0x04c0, 1, 1, 0x04cf, 1⟩, ⟨0x04c1, 7, 2, 0x04c2, 2⟩, ⟨0x04d0, 48, 2, 0x04d1, 2⟩,
    ⟨0x0531, 38, 1, 0x0561, 1⟩, ⟨0x10a0, 38, 1, 0x2d00, 1⟩, ⟨0x10c7, 1, 1, 0x2d27, 1⟩,
    ⟨0x10cd, 1, 1, 0x2d2d, 1⟩, ⟨0x13f8, 6, 1, 0x13f0, 1⟩, ⟨0x1c90, 43, 1, 0x10d0, 1⟩,
    ⟨0x1cbd, 3, 1, 0x10fd, 1⟩, ⟨0x1d33, 8, 1, 0x0067, 1⟩, ⟨0x1d5d, 3, 1, 0x03b2, 1⟩,
    ⟨0x1da4, 3, 1, 0x0268, 1⟩, ⟨0x1dae, 4, 1, 0x0272, 1⟩, ⟨0x1dbc, 3, 1, 0x0290, 1⟩,
    ⟨0x1e00, 75, 2, 0x1e01, 2⟩, ⟨0x1e9e, 1, 1, 0x00df, 1⟩, ⟨0x1ea0, 48, 2, 0x1ea1, 2⟩,
    ⟨0x1f08, 8, 1, 0x1f00, 1⟩, ⟨0x1f18, 6, 1, 0x1f10, 1⟩, ⟨0x1f28, 8, 1, 0x1f20, 1⟩,
    ⟨0x1f38, 8, 1, 0x1f30, 1⟩, ⟨0x1f48, 6, 1, 0x1f40, 1⟩, ⟨0x1f59, 4, 2, 0x1f51, 2⟩,
    ⟨0x1f68, 8, 1, 0x1f60, 1⟩, ⟨0x1fb8, 2, 1, 0x1fb0, 1⟩, ⟨0x1fba, 1, 1, 0x1f70, 1⟩,
    ⟨0x1fc8, 1, 1, 0x1f72, 1⟩, ⟨0x1fca, 1, 1, 0x1f74, 1⟩, ⟨0x1fd8, 2, 1, 0x1fd0, 1⟩,
    ⟨0x1fda, 1, 1, 0x1f76, 1⟩, ⟨0x1fe8, 2, 1, 0x1fe0, 1⟩, ⟨0x1fea, 1, 1, 0x1f7a, 1⟩,
    ⟨0x1fec, 1, 1, 0x1fe5, 1⟩, ⟨0x1ff8, 1, 1, 0x1f78, 1⟩, ⟨0x1ffa, 1, 1, 0x1f7c, 1⟩,
    ⟨0x2000, 11, 1, 0x0020, 0⟩, ⟨0x2074, 6, 1, 0x0034, 1⟩, ⟨0x2080, 10, 1, 0x0030, 1⟩,
    ⟨0x2096, 4, 1, 0x006b, 1⟩, ⟨0x210c, 3, 1, 0x0068, 0⟩, ⟨0x2119, 3, 1, 0x0070, 1⟩,
    ⟨0x2126, 1, 1, 0x03c9, 1⟩, ⟨0x212a, 1, 1, 0x006b, 1⟩, ⟨0x212b, 1, 1, 0x00e5, 1⟩,
    ⟨0x2132, 1, 1, 0x214e, 1⟩, ⟨0x2135, 4, 1, 0x05d0, 1⟩, ⟨0x2183, 1, 1, 0x2184, 1⟩,
    ⟨0x2460, 9, 1, 0x0031, 1⟩, ⟨0x24b6, 26, 1, 0x0061, 1⟩, ⟨0x24d0, 26, 1, 0x0061, 1⟩,
    ⟨0x2c00, 48, 1, 0x2c30, 1⟩, ⟨0x2c60, 1, 1, 0x2c61, 1⟩, ⟨0x2c62, 1, 1, 0x026b, 1⟩,
    ⟨0x2c63, 1, 1, 0x1d7d, 1⟩, ⟨0x2c64, 1, 1, 0x027d, 1⟩, ⟨0x2c67, 3, 2, 0x2c68, 2⟩,
    ⟨0x2c6d, 1, 1, 0x0251, 1⟩, ⟨0x2c6e, 1, 1, 0x0271, 1⟩, ⟨0x2c6f, 1, 1, 0x0250, 1⟩,
    ⟨0x2c70, 1, 1, 0x0252, 1⟩, ⟨0x2c72, 1, 1, 0x2c73, 1⟩, ⟨0x2c75, 1, 1, 0x2c76, 1⟩,
    ⟨0x2c7e, 2, 1, 0x023f, 1⟩, ⟨0x2c80, 50, 2, 0x2c81, 2⟩, ⟨0x2ceb, 2, 2, 0x2cec, 2⟩,
    ⟨0x2cf2, 1, 1, 0x2cf3, 1⟩, ⟨0x3137, 3, 1, 0x1103, 1⟩, ⟨0x313a, 6, 1, 0x11b0, 1⟩,
    ⟨0x3141, 3, 1, 0x1106, 1⟩, ⟨0x3145, 10, 1, 0x1109, 1⟩, ⟨0x314f, 21, 1, 0x1161, 1⟩,
    ⟨0x3178, 5, 1, 0x112b, 1⟩, ⟨0x3184, 3, 1, 0x1157, 1⟩, ⟨0x3263, 3, 1, 0x1105, 1⟩,
    ⟨0x3269, 5, 1, 0x110e, 1⟩, ⟨0x32e4, 6, 1, 0x30ca, 1⟩, ⟨0x32ee, 5, 1, 0x30de, 1⟩,
    ⟨0x32f5, 6, 1, 0x30e8, 1⟩, ⟨0x32fb, 4, 1, 0x30ef, 1⟩, ⟨0xa640, 23, 2, 0xa641, 2⟩,
    ⟨0xa680, 14, 2, 0xa681, 2⟩, ⟨0xa722, 7, 2, 0xa723, 2⟩, ⟨0xa732, 31, 2, 0xa733, 2⟩,
    ⟨0xa779, 2, 2, 0xa77a, 2⟩, ⟨0xa77d, 1, 1, 0x1d79, 1⟩, ⟨0xa77e, 5, 2, 0xa77f, 2⟩,
    ⟨0xa78b, 1, 1, 0xa78c, 1⟩, ⟨0xa78d, 1, 1, 0x0265, 1⟩, ⟨0xa790, 2, 2, 0xa791, 2⟩,
    ⟨0xa796, 10, 2, 0xa797, 2⟩, ⟨0xa7aa, 1, 1, 0x0266, 1⟩, ⟨0xa7ab, 1, 1, 0x025c, 1⟩,
    ⟨0xa7ac, 1, 1, 0x0261, 1⟩, ⟨0xa7ad, 1, 1, 0x026c, 1⟩, ⟨0xa7ae, 1, 1, 0x026a, 1⟩,
    ⟨0xa7b0, 1, 1, 0x029e, 1⟩, ⟨0xa7b1, 1, 1, 0x0287, 1⟩, ⟨0xa7b2, 1, 1, 0x029d, 1⟩,
    ⟨0xa7b3, 1, 1, 0xab53, 1⟩, ⟨0xa7b4, 8, 2, 0xa7b5, 2⟩, ⟨0xa7c4, 1, 1, 0xa794, 1⟩,
    ⟨0xa7c5, 1, 1, 0x0282, 1⟩, ⟨0xa7c6, 1, 1, 0x1d8e, 1⟩, ⟨0xa7c7, 2, 2, 0xa7c8, 2⟩,
    ⟨0xa7cc, 8, 2, 0xa7cd, 2⟩, ⟨0xa7f5, 1, 1, 0xa7f6, 1⟩, ⟨0xab70, 80, 1, 0x13a0, 1⟩,
    ⟨0xfb24, 3, 1, 0x05db, 1⟩, ⟨0xfb52, 4, 1, 0x067b, 0⟩, ⟨0xfb56, 4, 1, 0x067e, 0⟩,
    ⟨0xfb5a, 4, 1, 0x0680, 0⟩, ⟨0xfb5e, 4, 1, 0x067a, 0⟩, ⟨0xfb62, 4, 1, 0x067f, 0⟩,
    ⟨0xfb66, 4, 1, 0x0679, 0⟩, ⟨0xfb6a, 4, 1, 0x06a4, 0⟩, ⟨0xfb6e, 4, 1, 0x06a6, 0⟩,
    ⟨0xfb72, 4, 1, 0x0684, 0⟩, ⟨0xfb76, 4, 1, 0x0683, 0⟩, ⟨0xfb7a, 4, 1, 0x0686, 0⟩,
    ⟨0xfb7e, 4, 1, 0x0687, 0⟩, ⟨0xfb8e, 4, 1, 0x06a9, 0⟩, ⟨0xfb92, 4, 1, 0x06af, 0⟩,
    ⟨0xfb96, 4, 1, 0x06b3, 0⟩, ⟨0xfb9a, 4, 1, 0x06b1, 0⟩, ⟨0xfba0, 4, 1, 0x06bb, 0⟩,
    ⟨0xfba6, 4, 1, 0x06c1, 0⟩, ⟨0xfbaa, 4, 1, 0x06be, 0⟩, ⟨0xfbd3, 4, 1, 0x06ad, 0⟩,
    ⟨0xfbe4, 4, 1, 0x06d0, 0⟩, ⟨0xfbfc, 4, 1, 0x06cc, 0⟩, ⟨0xfe41, 4, 1, 0x300c, 1⟩,
    ⟨0xfe4d, 3, 1, 0x005f, 0⟩, ⟨0xfe8a, 3, 1, 0x0626, 0⟩, ⟨0xfe8f, 4, 1, 0x0628, 0⟩,
    ⟨0xfe95, 4, 1, 0x062a, 0⟩, ⟨0xfe99, 4, 1, 0x062b, 0⟩, ⟨0xfe9d, 4, 1, 0x062c, 0⟩,
    ⟨0xfea1, 4, 1, 0x062d, 0⟩, ⟨0xfea5, 4, 1, 0x062e, 0⟩, ⟨0xfeb1, 4, 1, 0x0633, 0⟩,
    ⟨0xfeb5, 4, 1, 0x0634, 0⟩, ⟨0xfeb9, 4, 1, 0x0635, 0⟩, ⟨0xfebd, 4, 1, 0x0636, 0⟩,
    ⟨0xfec1, 4, 1, 0x0637, 0⟩, ⟨0xfec5, 4, 1, 0x0638, 0⟩, ⟨0xfec9, 4, 1, 0x0639, 0⟩,
    ⟨0xfecd, 4, 1, 0x063a, 0⟩, ⟨0xfed1, 4, 1, 0x0641, 0⟩, ⟨0xfed5, 4, 1, 0x0642, 0⟩,
    ⟨0xfed9, 4, 1, 0x0643, 0⟩, ⟨0xfedd, 4, 1, 0x0644, 0⟩, ⟨0xfee1, 4, 1, 0x0645, 0⟩,
    ⟨0xfee5, 4, 1, 0x0646, 0⟩, ⟨0xfee9, 4, 1, 0x0647, 0⟩, ⟨0xfef1, 4, 1, 0x064a, 0⟩,
    ⟨0xff01, 32, 1, 0x0021, 1⟩, ⟨0xff21, 26, 1, 0x0061, 1⟩, ⟨0xff3b, 36, 1, 0x005b, 1⟩,
    ⟨0xff85, 6, 1, 0x30ca, 1⟩, ⟨0xff8f, 5, 1, 0x30de, 1⟩, ⟨0xff96, 6, 1, 0x30e8, 1⟩,
    ⟨0xffa7, 3, 1, 0x1103, 1⟩, ⟨0xffaa, 6, 1, 0x11b0, 1⟩, ⟨0xffb1, 3, 1, 0x1106, 1⟩,
    ⟨0xffb5, 10, 1, 0x1109, 1⟩, ⟨0xffc2, 6, 1, 0x1161, 1⟩, ⟨0xffca, 6, 1, 0x1167, 1⟩,
    ⟨0xffd2, 6, 1, 0x116d, 1⟩, ⟨0xffda, 3, 1, 0x1173, 1⟩, ⟨0xffe9, 4, 1, 0x2190, 1⟩,
    ⟨0x10400, 40, 1, 0x10428, 1⟩, ⟨0x104b0, 36, 1, 0x104d8, 1⟩, ⟨0x10570, 11, 1, 0x10597, 1⟩,
    ⟨0x1057c, 15, 1, 0x105a3, 1⟩, ⟨0x1058c, 7, 1, 0x105b3, 1⟩, ⟨0x10594, 2, 1, 0x105bb, 1⟩,
    ⟨0x107b6, 3, 1, 0x01c0, 1⟩, ⟨0x10c80, 51, 1, 0x10cc0, 1⟩, ⟨0x10d50, 22, 1, 0x10d70, 1⟩,
    ⟨0x118a0, 32, 1, 0x118c0, 1⟩, ⟨0x16e40, 32, 1, 0x16e60, 1⟩, ⟨0x16ea0, 25, 1, 0x16ebb, 1⟩,
    ⟨0x1ccd6, 26, 1, 0x0061, 1⟩, ⟨0x1ccf0, 10, 1, 0x0030, 1⟩, ⟨0x1d400, 26, 1, 0x0061, 1⟩,
    ⟨0x1d41a, 26, 1, 0x0061, 1⟩, ⟨0x1d434, 26, 1, 0x0061, 1⟩, ⟨0x1d44e, 7, 1, 0x0061, 1⟩,
    ⟨0x1d456, 18, 1, 0x0069, 1⟩, ⟨0x1d468, 26, 1, 0x0061, 1⟩, ⟨0x1d482, 26, 1, 0x0061, 1⟩,
    ⟨0x1d4a9, 4, 1, 0x006e, 1⟩, ⟨0x1d4ae, 8, 1, 0x0073, 1⟩, ⟨0x1d4b6, 4, 1, 0x0061, 1⟩,
    ⟨0x1d4be, 6, 1, 0x0069, 1⟩, ⟨0x1d4c5, 11, 1, 0x0070, 1⟩, ⟨0x1d4d0, 26, 1, 0x0061, 1⟩,
    ⟨0x1d4ea, 26, 1, 0x0061, 1⟩, ⟨0x1d507, 4, 1, 0x0064, 1⟩, ⟨0x1d50d, 8, 1, 0x006a, 1⟩,
    ⟨0x1d516, 7, 1, 0x0073, 1⟩, ⟨0x1d51e, 26, 1, 0x0061, 1⟩, ⟨0x1d53b, 4, 1, 0x0064, 1⟩,
    ⟨0x1d540, 5, 1, 0x0069, 1⟩, ⟨0x1d54a, 7, 1, 0x0073, 1⟩, ⟨0x1d552, 26, 1, 0x0061, 1⟩,
    ⟨0x1d56c, 26, 1, 0x0061, 1⟩, ⟨0x1d586, 26, 1, 0x0061, 1⟩, ⟨0x1d5a0, 26, 1, 0x0061, 1⟩,
    ⟨0x1d5ba, 26, 1, 0x0061, 1⟩, ⟨0x1d5d4, 26, 1, 0x0061, 1⟩, ⟨0x1d5ee, 26, 1, 0x0061, 1⟩,
    ⟨0x1d608, 26, 1, 0x0061, 1⟩, ⟨0x1d622, 26, 1, 0x0061, 1⟩, ⟨0x1d63c, 26, 1, 0x0061, 1⟩,
    ⟨0x1d656, 26, 1, 0x0061, 1⟩, ⟨0x1d670, 26, 1, 0x0061, 1⟩, ⟨0x1d68a, 26, 1, 0x0061, 1⟩,
    ⟨0x1d6a8, 17, 1, 0x03b1, 1⟩, ⟨0x1d6ba, 7, 1, 0x03c3, 1⟩, ⟨0x1d6c2, 17, 1, 0x03b1, 1⟩,
    ⟨0x1d6d5, 6, 1, 0x03c4, 1⟩, ⟨0x1d6e2, 17, 1, 0x03b1, 1⟩, ⟨0x1d6f4, 7, 1, 0x03c3, 1⟩,
    ⟨0x1d6fc, 17, 1, 0x03b1, 1⟩, ⟨0x1d70f, 6, 1, 0x03c4, 1⟩, ⟨0x1d71c, 17, 1, 0x03b1, 1⟩,
    ⟨0x1d72e, 7, 1, 0x03c3, 1⟩, ⟨0x1d736, 17, 1, 0x03b1, 1⟩, ⟨0x1d749, 6, 1, 0x03c4, 1⟩,
    ⟨0x1d756, 17, 1, 0x03b1, 1⟩, ⟨0x1d768, 7, 1, 0x03c3, 1⟩, ⟨0x1d770, 17, 1, 0x03b1, 1⟩,
    ⟨0x1d783, 6, 1, 0x03c4, 1⟩, ⟨0x1d790, 17, 1, 0x03b1, 1⟩, ⟨0x1d7a2, 7, 1, 0x03c3, 1⟩,
    ⟨0x1d7aa, 17, 1, 0x03b1, 1⟩, ⟨0x1d7bd, 6, 1, 0x03c4, 1⟩, ⟨0x1d7ce, 10, 1, 0x0030, 1⟩,
    ⟨0x1d7d8, 10, 1, 0x0030, 1⟩, ⟨0x1d7e2, 10, 1, 0x0030, 1⟩, ⟨0x1d7ec, 10, 1, 0x0030, 1⟩,
    ⟨0x1d7f6, 10, 1, 0x0030, 1⟩, ⟨0x1e030, 9, 1, 0x0430, 1⟩, ⟨0x1e039, 3, 1, 0x043a, 1⟩,
    ⟨0x1e03c, 11, 1, 0x043e, 1⟩, ⟨0x1e051, 9, 1, 0x0430, 1⟩, ⟨0x1e05f, 6, 1, 0x0443, 1⟩,
    ⟨0x1e900, 34, 1, 0x1e922, 1⟩, ⟨0x1ee0a, 4, 1, 0x0643, 1⟩, ⟨0x1ee2a, 4, 1, 0x0643, 1⟩,
    ⟨0x1ee8b, 3, 1, 0x0644, 1⟩, ⟨0x1eeab, 3, 1, 0x0644, 1⟩, ⟨0x1f130, 26, 1, 0x0061, 1⟩,
    ⟨0x1fbf0, 10, 1, 0x0030, 1⟩, ⟨0x2f831, 3, 1, 0x537f, 0⟩]

/-- Characters that map to one character and stand in no run, with their images. -/
def pairs : List (Nat × Nat) := [
    (0x00aa, 0x0061), (0x00b2, 0x0032), (0x00b3, 0x0033), (0x00b5, 0x03bc), (0x00b9, 0x0031),
    (0x00ba, 0x006f), (0x017f, 0x0073), (0x02b0, 0x0068), (0x02b1, 0x0266), (0x02b2, 0x006a),
    (0x02b3, 0x0072), (0x02b4, 0x0279), (0x02b5, 0x027b), (0x02b6, 0x0281), (0x02b7, 0x0077),
    (0x02b8, 0x0079), (0x02e0, 0x0263), (0x02e1, 0x006c), (0x02e2, 0x0073), (0x02e3, 0x0078),
    (0x02e4, 0x0295), (0x0340, 0x0300), (0x0341, 0x0301), (0x0343, 0x0313), (0x0345, 0x03b9),
    (0x0374, 0x02b9), (0x037e, 0x003b), (0x0387, 0x00b7), (0x03d0, 0x03b2), (0x03d1, 0x03b8),
    (0x03d2, 0x03c5), (0x03d3, 0x03cd), (0x03d4, 0x03cb), (0x03d5, 0x03c6), (0x03d6, 0x03c0),
    (0x03f0, 0x03ba), (0x03f1, 0x03c1), (0x03f2, 0x03c3), (0x03f5, 0x03b5), (0x03f9, 0x03c3),
    (0x0f0c, 0x0f0b), (0x10fc, 0x10dc), (0x1c80, 0x0432), (0x1c81, 0x0434), (0x1c82, 0x043e),
    (0x1c83, 0x0441), (0x1c84, 0x0442), (0x1c85, 0x0442), (0x1c86, 0x044a), (0x1c87, 0x0463),
    (0x1c88, 0xa64b), (0x1c89, 0x1c8a), (0x1d2c, 0x0061), (0x1d2d, 0x00e6), (0x1d2e, 0x0062),
    (0x1d30, 0x0064), (0x1d31, 0x0065), (0x1d32, 0x01dd), (0x1d3c, 0x006f), (0x1d3d, 0x0223),
    (0x1d3e, 0x0070), (0x1d3f, 0x0072), (0x1d40, 0x0074), (0x1d41, 0x0075), (0x1d42, 0x0077),
    (0x1d43, 0x0061), (0x1d44, 0x0250), (0x1d45, 0x0251), (0x1d46, 0x1d02), (0x1d47, 0x0062),
    (0x1d48, 0x0064), (0x1d49, 0x0065), (0x1d4a, 0x0259), (0x1d4b, 0x025b), (0x1d4c, 0x025c),
    (0x1d4d, 0x0067), (0x1d4f, 0x006b), (0x1d50, 0x006d), (0x1d51, 0x014b), (0x1d52, 0x006f),
    (0x1d53, 0x0254), (0x1d54, 0x1d16), (0x1d55, 0x1d17), (0x1d56, 0x0070), (0x1d57, 0x0074),
    (0x1d58, 0x0075), (0x1d59, 0x1d1d), (0x1d5a, 0x026f), (0x1d5b, 0x0076), (0x1d5c, 0x1d25),
    (0x1d60, 0x03c6), (0x1d61, 0x03c7), (0x1d62, 0x0069), (0x1d63, 0x0072), (0x1d64, 0x0075),
    (0x1d65, 0x0076), (0x1d66, 0x03b2), (0x1d67, 0x03b3), (0x1d68, 0x03c1), (0x1d69, 0x03c6),
    (0x1d6a, 0x03c7), (0x1d78, 0x043d), (0x1d9b, 0x0252), (0x1d9c, 0x0063), (0x1d9d, 0x0255),
    (0x1d9e, 0x00f0), (0x1d9f, 0x025c), (0x1da0, 0x0066), (0x1da1, 0x025f), (0x1da2, 0x0261),
    (0x1da3, 0x0265), (0x1da7, 0x1d7b), (0x1da8, 0x029d), (0x1da9, 0x026d), (0x1daa, 0x1d85),
    (0x1dab, 0x029f), (0x1dac, 0x0271), (0x1dad, 0x0270), (0x1db2, 0x0278), (0x1db3, 0x0282),
    (0x1db4, 0x0283), (0x1db5, 0x01ab), (0x1db6, 0x0289), (0x1db7, 0x028a), (0x1db8, 0x1d1c),
    (0x1db9, 0x028b), (0x1dba, 0x028c), (0x1dbb, 0x007a), (0x1dbf, 0x03b8), (0x1e9b, 0x1e61),
    (0x1f71, 0x03ac), (0x1f73, 0x03ad), (0x1f75, 0x03ae), (0x1f77, 0x03af), (0x1f79, 0x03cc),
    (0x1f7b, 0x03cd), (0x1f7d, 0x03ce), (0x1fbb, 0x03ac), (0x1fbe, 0x03b9), (0x1fc9, 0x03ad),
    (0x1fcb, 0x03ae), (0x1fd3, 0x0390), (0x1fdb, 0x03af), (0x1fe3, 0x03b0), (0x1feb, 0x03cd),
    (0x1ff9, 0x03cc), (0x1ffb, 0x03ce), (0x2011, 0x2010), (0x2070, 0x0030), (0x2071, 0x0069),
    (0x207a, 0x002b), (0x207b, 0x2212), (0x207c, 0x003d), (0x207d, 0x0028), (0x207e, 0x0029),
    (0x207f, 0x006e), (0x208a, 0x002b), (0x208b, 0x2212), (0x208c, 0x003d), (0x208d, 0x0028),
    (0x208e, 0x0029), (0x2090, 0x0061), (0x2091, 0x0065), (0x2092, 0x006f), (0x2093, 0x0078),
    (0x2094, 0x0259), (0x2095, 0x0068), (0x209a, 0x0070), (0x209b, 0x0073), (0x209c, 0x0074),
    (0x2102, 0x0063), (0x2107, 0x025b), (0x210a, 0x0067), (0x210b, 0x0068), (0x210f, 0x0127),
    (0x2110, 0x0069), (0x2111, 0x0069), (0x2112, 0x006c), (0x2113, 0x006c), (0x2115, 0x006e),
    (0x211c, 0x0072), (0x211d, 0x0072), (0x2124, 0x007a), (0x2128, 0x007a), (0x212c, 0x0062),
    (0x212d, 0x0063), (0x212f, 0x0065), (0x2130, 0x0065), (0x2131, 0x0066), (0x2133, 0x006d),
    (0x2134, 0x006f), (0x2139, 0x0069), (0x213c, 0x03c0), (0x213d, 0x03b3), (0x213e, 0x03b3),
    (0x213f, 0x03c0), (0x2140, 0x2211), (0x2145, 0x0064), (0x2146, 0x0064), (0x2147, 0x0065),
    (0x2148, 0x0069), (0x2149, 0x006a), (0x2160, 0x0069), (0x2164, 0x0076), (0x2169, 0x0078),
    (0x216c, 0x006c), (0x216d, 0x0063), (0x216e, 0x0064), (0x216f, 0x006d), (0x2170, 0x0069),
    (0x2174, 0x0076), (0x2179, 0x0078), (0x217c, 0x006c), (0x217d, 0x0063), (0x217e, 0x0064),
    (0x217f, 0x006d), (0x2329, 0x3008), (0x232a, 0x3009), (0x24ea, 0x0030), (0x2c7c, 0x006a),
    (0x2c7d, 0x0076), (0x2d6f, 0x2d61), (0x3002, 0x002e), (0x3036, 0x3012), (0x3038, 0x5341),
    (0x3039, 0x5344), (0x303a, 0x5345), (0x3131, 0x1100), (0x3132, 0x1101), (0x3133, 0x11aa),
    (0x3134, 0x1102), (0x3135, 0x11ac), (0x3136, 0x11ad), (0x3140, 0x111a), (0x3144, 0x1121),
    (0x3165, 0x1114), (0x3166, 0x1115), (0x3167, 0x11c7), (0x3168, 0x11c8), (0x3169, 0x11cc),
    (0x316a, 0x11ce), (0x316b, 0x11d3), (0x316c, 0x11d7), (0x316d, 0x11d9), (0x316e, 0x111c),
    (0x316f, 0x11dd), (0x3170, 0x11df), (0x3171, 0x111d), (0x3172, 0x111e), (0x3173, 0x1120),
    (0x3174, 0x1122), (0x3175, 0x1123), (0x3176, 0x1127), (0x3177, 0x1129), (0x317d, 0x1132),
    (0x317e, 0x1136), (0x317f, 0x1140), (0x3180, 0x1147), (0x3181, 0x114c), (0x3182, 0x11f1),
    (0x3183, 0x11f2), (0x3187, 0x1184), (0x3188, 0x1185), (0x3189, 0x1188), (0x318a, 0x1191),
    (0x318b, 0x1192), (0x318c, 0x1194), (0x318d, 0x119e), (0x318e, 0x11a1), (0x3192, 0x4e00),
    (0x3193, 0x4e8c), (0x3194, 0x4e09), (0x3195, 0x56db), (0x3196, 0x4e0a), (0x3197, 0x4e2d),
    (0x3198, 0x4e0b), (0x3199, 0x7532), (0x319a, 0x4e59), (0x319b, 0x4e19), (0x319c, 0x4e01),
    (0x319d, 0x5929), (0x319e, 0x5730), (0x319f, 0x4eba), (0x3244, 0x554f), (0x3245, 0x5e7c),
    (0x3246, 0x6587), (0x3247, 0x7b8f), (0x3260, 0x1100), (0x3261, 0x1102), (0x3262, 0x1103),
    (0x3266, 0x1109), (0x3267, 0x110b), (0x3268, 0x110c), (0x326e, 0xac00), (0x326f, 0xb098),
    (0x3270, 0xb2e4), (0x3271, 0xb77c), (0x3272, 0xb9c8), (0x3273, 0xbc14), (0x3274, 0xc0ac),
    (0x3275, 0xc544), (0x3276, 0xc790), (0x3277, 0xcc28), (0x3278, 0xce74), (0x3279, 0xd0c0),
    (0x327a, 0xd30c), (0x327b, 0xd558), (0x327e, 0xc6b0), (0x3280, 0x4e00), (0x3281, 0x4e8c),
    (0x3282, 0x4e09), (0x3283, 0x56db), (0x3284, 0x4e94), (0x3285, 0x516d), (0x3286, 0x4e03),
    (0x3287, 0x516b), (0x3288, 0x4e5d), (0x3289, 0x5341), (0x328a, 0x6708), (0x328b, 0x706b),
    (0x328c, 0x6c34), (0x328d, 0x6728), (0x328e, 0x91d1), (0x328f, 0x571f), (0x3290, 0x65e5),
    (0x3291, 0x682a), (0x3292, 0x6709), (0x3293, 0x793e), (0x3294, 0x540d), (0x3295, 0x7279),
    (0x3296, 0x8ca1), (0x3297, 0x795d), (0x3298, 0x52b4), (0x3299, 0x79d8), (0x329a, 0x7537),
    (0x329b, 0x5973), (0x329c, 0x9069), (0x329d, 0x512a), (0x329e, 0x5370), (0x329f, 0x6ce8),
    (0x32a0, 0x9805), (0x32a1, 0x4f11), (0x32a2, 0x5199), (0x32a3, 0x6b63), (0x32a4, 0x4e0a),
    (0x32a5, 0x4e2d), (0x32a6, 0x4e0b), (0x32a7, 0x5de6), (0x32a8, 0x53f3), (0x32a9, 0x533b),
    (0x32aa, 0x5b97), (0x32ab, 0x5b66), (0x32ac, 0x76e3), (0x32ad, 0x4f01), (0x32ae, 0x8cc7),
    (0x32af, 0x5354), (0x32b0, 0x591c), (0x32d0, 0x30a2), (0x32d1, 0x30a4), (0x32d2, 0x30a6),
    (0x32d3, 0x30a8), (0x32d4, 0x30aa), (0x32d5, 0x30ab), (0x32d6, 0x30ad), (0x32d7, 0x30af),
    (0x32d8, 0x30b1), (0x32d9, 0x30b3), (0x32da, 0x30b5), (0x32db, 0x30b7), (0x32dc, 0x30b9),
    (0x32dd, 0x30bb), (0x32de, 0x30bd), (0x32df, 0x30bf), (0x32e0, 0x30c1), (0x32e1, 0x30c4),
    (0x32e2, 0x30c6), (0x32e3, 0x30c8), (0x32ea, 0x30d2), (0x32eb, 0x30d5), (0x32ec, 0x30d8),
    (0x32ed, 0x30db), (0x32f3, 0x30e4), (0x32f4, 0x30e6), (0xff5f, 0x2985), (0xff60, 0x2986),
    (0xff61, 0x002e), (0xff62, 0x300c), (0xff63, 0x300d), (0xff64, 0x3001), (0xff65, 0x30fb),
    (0xff66, 0x30f2), (0xff67, 0x30a1), (0xff68, 0x30a3), (0xff69, 0x30a5), (0xff6a, 0x30a7),
    (0xff6b, 0x30a9), (0xff6c, 0x30e3), (0xff6d, 0x30e5), (0xff6e, 0x30e7), (0xff6f, 0x30c3),
    (0xff70, 0x30fc), (0xff71, 0x30a2), (0xff72, 0x30a4), (0xff73, 0x30a6), (0xff74, 0x30a8),
    (0xff75, 0x30aa), (0xff76, 0x30ab), (0xff77, 0x30ad), (0xff78, 0x30af), (0xff79, 0x30b1),
    (0xff7a, 0x30b3), (0xff7b, 0x30b5), (0xff7c, 0x30b7), (0xff7d, 0x30b9), (0xff7e, 0x30bb),
    (0xff7f, 0x30bd), (0xff80, 0x30bf), (0xff81, 0x30c1), (0xff82, 0x30c4), (0xff83, 0x30c6),
    (0xff84, 0x30c8), (0xff8b, 0x30d2), (0xff8c, 0x30d5), (0xff8d, 0x30d8), (0xff8e, 0x30db),
    (0xff94, 0x30e4), (0xff95, 0x30e6), (0xff9c, 0x30ef), (0xff9d, 0x30f3), (0xff9e, 0x3099),
    (0xff9f, 0x309a), (0xffa1, 0x1100), (0xffa2, 0x1101), (0xffa3, 0x11aa), (0xffa4, 0x1102),
    (0xffa5, 0x11ac), (0xffa6, 0x11ad), (0xffb0, 0x111a), (0xffb4, 0x1121), (0xffe0, 0x00a2),
    (0xffe1, 0x00a3), (0xffe2, 0x00ac), (0xffe4, 0x00a6), (0xffe5, 0x00a5), (0xffe6, 0x20a9),
    (0xffe8, 0x2502), (0xffed, 0x25a0), (0xffee, 0x25cb)]

/-- Characters that map to several characters. -/
def expansions : List (Nat × List Nat) := [
    (0x00bc, [0x0031, 0x2044, 0x0034]), (0x00bd, [0x0031, 0x2044, 0x0032]),
    (0x00be, [0x0033, 0x2044, 0x0034]), (0x0130, [0x0069, 0x0307]), (0x0132, [0x0069, 0x006a]),
    (0x0133, [0x0069, 0x006a]), (0x013f, [0x006c, 0x00b7]), (0x0140, [0x006c, 0x00b7]),
    (0x0149, [0x02bc, 0x006e]), (0x01c4, [0x0064, 0x017e]), (0x01c5, [0x0064, 0x017e]),
    (0x01c6, [0x0064, 0x017e]), (0x01c7, [0x006c, 0x006a]), (0x01c8, [0x006c, 0x006a]),
    (0x01c9, [0x006c, 0x006a]), (0x01ca, [0x006e, 0x006a]), (0x01cb, [0x006e, 0x006a]),
    (0x01cc, [0x006e, 0x006a]), (0x01f1, [0x0064, 0x007a]), (0x01f2, [0x0064, 0x007a]),
    (0x01f3, [0x0064, 0x007a]), (0x0344, [0x0308, 0x0301]), (0x0587, [0x0565, 0x0582]),
    (0x1e9a, [0x0061, 0x02be]), (0x2103, [0x00b0, 0x0063]), (0x2109, [0x00b0, 0x0066]),
    (0x2116, [0x006e, 0x006f]), (0x2121, [0x0074, 0x0065, 0x006c]), (0x2122, [0x0074, 0x006d]),
    (0x2150, [0x0031, 0x2044, 0x0037]), (0x2151, [0x0031, 0x2044, 0x0039]),
    (0x2152, [0x0031, 0x2044, 0x0031, 0x0030]), (0x2153, [0x0031, 0x2044, 0x0033]),
    (0x2154, [0x0032, 0x2044, 0x0033]), (0x2155, [0x0031, 0x2044, 0x0035]),
    (0x2156, [0x0032, 0x2044, 0x0035]), (0x2157, [0x0033, 0x2044, 0x0035]),
    (0x2158, [0x0034, 0x2044, 0x0035]), (0x2159, [0x0031, 0x2044, 0x0036]),
    (0x215a, [0x0035, 0x2044, 0x0036]), (0x215b, [0x0031, 0x2044, 0x0038]),
    (0x215c, [0x0033, 0x2044, 0x0038]), (0x215d, [0x0035, 0x2044, 0x0038]),
    (0x215e, [0x0037, 0x2044, 0x0038]), (0x2161, [0x0069, 0x0069]),
    (0x2162, [0x0069, 0x0069, 0x0069]), (0x2163, [0x0069, 0x0076]), (0x2165, [0x0076, 0x0069]),
    (0x2166, [0x0076, 0x0069, 0x0069]), (0x2167, [0x0076, 0x0069, 0x0069, 0x0069]),
    (0x2168, [0x0069, 0x0078]), (0x216a, [0x0078, 0x0069]), (0x216b, [0x0078, 0x0069, 0x0069]),
    (0x2171, [0x0069, 0x0069]), (0x2172, [0x0069, 0x0069, 0x0069]), (0x2173, [0x0069, 0x0076]),
    (0x2175, [0x0076, 0x0069]), (0x2176, [0x0076, 0x0069, 0x0069]),
    (0x2177, [0x0076, 0x0069, 0x0069, 0x0069]), (0x2178, [0x0069, 0x0078]),
    (0x217a, [0x0078, 0x0069]), (0x217b, [0x0078, 0x0069, 0x0069]), (0x2469, [0x0031, 0x0030]),
    (0x246a, [0x0031, 0x0031]), (0x246b, [0x0031, 0x0032]), (0x246c, [0x0031, 0x0033]),
    (0x246d, [0x0031, 0x0034]), (0x246e, [0x0031, 0x0035]), (0x246f, [0x0031, 0x0036]),
    (0x2470, [0x0031, 0x0037]), (0x2471, [0x0031, 0x0038]), (0x2472, [0x0031, 0x0039]),
    (0x2473, [0x0032, 0x0030]), (0xfb00, [0x0066, 0x0066]), (0xfb01, [0x0066, 0x0069]),
    (0xfb02, [0x0066, 0x006c]), (0xfb03, [0x0066, 0x0066, 0x0069]),
    (0xfb04, [0x0066, 0x0066, 0x006c]), (0xfb05, [0x0073, 0x0074]), (0xfb06, [0x0073, 0x0074]),
    (0xfb13, [0x0574, 0x0576]), (0xfb14, [0x0574, 0x0565]), (0xfb15, [0x0574, 0x056b]),
    (0xfb16, [0x057e, 0x0576]), (0xfb17, [0x0574, 0x056d])]

/-- Ranges of characters that are left out. -/
def ignored : List (Nat × Nat) := [
    (0x00ad, 0x00ad), (0x034f, 0x034f), (0x115f, 0x1160), (0x17b4, 0x17b5), (0x180b, 0x180f),
    (0x200b, 0x200b), (0x2060, 0x2064), (0x206a, 0x206f), (0x3164, 0x3164), (0xfe00, 0xfe0f),
    (0xfeff, 0xfeff), (0xffa0, 0xffa0), (0x1bca0, 0x1bca3), (0x1d173, 0x1d17a),
    (0xe0100, 0xe01ef)]

/-- Ranges of characters that no domain name holds: controls, blanks, private characters, and
characters whose plain forms hold blanks. -/
def disallowed : List (Nat × Nat) := [
    (0x0080, 0x00a0), (0x00a8, 0x00a8), (0x00af, 0x00af), (0x00b4, 0x00b4), (0x00b8, 0x00b8),
    (0x02d8, 0x02dd), (0x037a, 0x037a), (0x0384, 0x0385), (0x0600, 0x0605), (0x061c, 0x061c),
    (0x06dd, 0x06dd), (0x070f, 0x070f), (0x0890, 0x0891), (0x08e2, 0x08e2), (0x1680, 0x1680),
    (0x1fef, 0x1fef), (0x200e, 0x200f), (0x2024, 0x2026), (0x2028, 0x202f), (0x205f, 0x205f),
    (0x2066, 0x2069), (0x2488, 0x249b), (0x2ff0, 0x2ffb), (0x3000, 0x3000), (0x33c2, 0x33c2),
    (0x33c7, 0x33c7), (0x33d8, 0x33d8), (0xe000, 0xf8ff), (0xfdd0, 0xfdef), (0xfe12, 0xfe12),
    (0xfe19, 0xfe19), (0xfe30, 0xfe30), (0xfe52, 0xfe52), (0xfff9, 0xffff), (0x110bd, 0x110bd),
    (0x110cd, 0x110cd), (0x13430, 0x13438), (0x1f100, 0x1f100), (0x1fffe, 0x1ffff),
    (0x2fffe, 0x2ffff), (0x3fffe, 0x3ffff), (0x4fffe, 0x4ffff), (0x5fffe, 0x5ffff),
    (0x6fffe, 0x6ffff), (0x7fffe, 0x7ffff), (0x8fffe, 0x8ffff), (0x9fffe, 0x9ffff),
    (0xafffe, 0xaffff), (0xbfffe, 0xbffff), (0xcfffe, 0xcffff), (0xdfffe, 0xdffff),
    (0xe0001, 0xe0001), (0xe0020, 0xe007f), (0xefffe, 0x10ffff)]

/-- Ranges of marks that combine with the character before them. -/
def marks : List (Nat × Nat) := [
    (0x0300, 0x033f), (0x0342, 0x0342), (0x0346, 0x034e), (0x0350, 0x036f), (0x0483, 0x0489),
    (0x0591, 0x05bd), (0x05bf, 0x05bf), (0x05c1, 0x05c2), (0x05c4, 0x05c5), (0x05c7, 0x05c7),
    (0x0610, 0x061a), (0x064b, 0x065f), (0x0670, 0x0670), (0x06d6, 0x06dc), (0x06df, 0x06e4),
    (0x06e7, 0x06e8), (0x06ea, 0x06ed), (0x0711, 0x0711), (0x0730, 0x074a), (0x07a6, 0x07b0),
    (0x07eb, 0x07f3), (0x07fd, 0x07fd), (0x0816, 0x0819), (0x081b, 0x0823), (0x0825, 0x0827),
    (0x0829, 0x082d), (0x0859, 0x085b), (0x0898, 0x089f), (0x08ca, 0x08e1), (0x08e3, 0x0903),
    (0x093a, 0x093c), (0x093e, 0x094f), (0x0951, 0x0957), (0x0962, 0x0963), (0x0981, 0x0983),
    (0x09bc, 0x09bc), (0x09be, 0x09c4), (0x09c7, 0x09c8), (0x09cb, 0x09cd), (0x09d7, 0x09d7),
    (0x09e2, 0x09e3), (0x09fe, 0x09fe), (0x0a01, 0x0a03), (0x0a3c, 0x0a3c), (0x0a3e, 0x0a42),
    (0x0a47, 0x0a48), (0x0a4b, 0x0a4d), (0x0a51, 0x0a51), (0x0a70, 0x0a71), (0x0a75, 0x0a75),
    (0x0a81, 0x0a83), (0x0abc, 0x0abc), (0x0abe, 0x0ac5), (0x0ac7, 0x0ac9), (0x0acb, 0x0acd),
    (0x0ae2, 0x0ae3), (0x0afa, 0x0aff), (0x0b01, 0x0b03), (0x0b3c, 0x0b3c), (0x0b3e, 0x0b44),
    (0x0b47, 0x0b48), (0x0b4b, 0x0b4d), (0x0b55, 0x0b57), (0x0b62, 0x0b63), (0x0b82, 0x0b82),
    (0x0bbe, 0x0bc2), (0x0bc6, 0x0bc8), (0x0bca, 0x0bcd), (0x0bd7, 0x0bd7), (0x0c00, 0x0c04),
    (0x0c3c, 0x0c3c), (0x0c3e, 0x0c44), (0x0c46, 0x0c48), (0x0c4a, 0x0c4d), (0x0c55, 0x0c56),
    (0x0c62, 0x0c63), (0x0c81, 0x0c83), (0x0cbc, 0x0cbc), (0x0cbe, 0x0cc4), (0x0cc6, 0x0cc8),
    (0x0cca, 0x0ccd), (0x0cd5, 0x0cd6), (0x0ce2, 0x0ce3), (0x0d00, 0x0d03), (0x0d3b, 0x0d3c),
    (0x0d3e, 0x0d44), (0x0d46, 0x0d48), (0x0d4a, 0x0d4d), (0x0d57, 0x0d57), (0x0d62, 0x0d63),
    (0x0d81, 0x0d83), (0x0dca, 0x0dca), (0x0dcf, 0x0dd4), (0x0dd6, 0x0dd6), (0x0dd8, 0x0ddf),
    (0x0df2, 0x0df3), (0x0e31, 0x0e31), (0x0e34, 0x0e3a), (0x0e47, 0x0e4e), (0x0eb1, 0x0eb1),
    (0x0eb4, 0x0ebc), (0x0ec8, 0x0ecd), (0x0f18, 0x0f19), (0x0f35, 0x0f35), (0x0f37, 0x0f37),
    (0x0f39, 0x0f39), (0x0f3e, 0x0f3f), (0x0f71, 0x0f72), (0x0f74, 0x0f74), (0x0f7a, 0x0f80),
    (0x0f82, 0x0f84), (0x0f86, 0x0f87), (0x0f8d, 0x0f92), (0x0f94, 0x0f97), (0x0f99, 0x0f9c),
    (0x0f9e, 0x0fa1), (0x0fa3, 0x0fa6), (0x0fa8, 0x0fab), (0x0fad, 0x0fb8), (0x0fba, 0x0fbc),
    (0x0fc6, 0x0fc6), (0x102b, 0x103e), (0x1056, 0x1059), (0x105e, 0x1060), (0x1062, 0x1064),
    (0x1067, 0x106d), (0x1071, 0x1074), (0x1082, 0x108d), (0x108f, 0x108f), (0x109a, 0x109d),
    (0x135d, 0x135f), (0x1712, 0x1715), (0x1732, 0x1734), (0x1752, 0x1753), (0x1772, 0x1773),
    (0x17b6, 0x17d3), (0x17dd, 0x17dd), (0x1885, 0x1886), (0x18a9, 0x18a9), (0x1920, 0x192b),
    (0x1930, 0x193b), (0x1a17, 0x1a1b), (0x1a55, 0x1a5e), (0x1a60, 0x1a7c), (0x1a7f, 0x1a7f),
    (0x1ab0, 0x1ace), (0x1b00, 0x1b04), (0x1b34, 0x1b44), (0x1b6b, 0x1b73), (0x1b80, 0x1b82),
    (0x1ba1, 0x1bad), (0x1be6, 0x1bf3), (0x1c24, 0x1c37), (0x1cd0, 0x1cd2), (0x1cd4, 0x1ce8),
    (0x1ced, 0x1ced), (0x1cf4, 0x1cf4), (0x1cf7, 0x1cf9), (0x1dc0, 0x1dff), (0x20d0, 0x20f0),
    (0x2cef, 0x2cf1), (0x2d7f, 0x2d7f), (0x2de0, 0x2dff), (0x302a, 0x302f), (0x3099, 0x309a),
    (0xa66f, 0xa672), (0xa674, 0xa67d), (0xa69e, 0xa69f), (0xa6f0, 0xa6f1), (0xa802, 0xa802),
    (0xa806, 0xa806), (0xa80b, 0xa80b), (0xa823, 0xa827), (0xa82c, 0xa82c), (0xa880, 0xa881),
    (0xa8b4, 0xa8c5), (0xa8e0, 0xa8f1), (0xa8ff, 0xa8ff), (0xa926, 0xa92d), (0xa947, 0xa953),
    (0xa980, 0xa983), (0xa9b3, 0xa9c0), (0xa9e5, 0xa9e5), (0xaa29, 0xaa36), (0xaa43, 0xaa43),
    (0xaa4c, 0xaa4d), (0xaa7b, 0xaa7d), (0xaab0, 0xaab0), (0xaab2, 0xaab4), (0xaab7, 0xaab8),
    (0xaabe, 0xaabf), (0xaac1, 0xaac1), (0xaaeb, 0xaaef), (0xaaf5, 0xaaf6), (0xabe3, 0xabea),
    (0xabec, 0xabed), (0xfb1e, 0xfb1e), (0xfe20, 0xfe2f), (0x101fd, 0x101fd), (0x102e0, 0x102e0),
    (0x10376, 0x1037a), (0x10a01, 0x10a03), (0x10a05, 0x10a06), (0x10a0c, 0x10a0f),
    (0x10a38, 0x10a3a), (0x10a3f, 0x10a3f), (0x10ae5, 0x10ae6), (0x10d24, 0x10d27),
    (0x10eab, 0x10eac), (0x10f46, 0x10f50), (0x10f82, 0x10f85), (0x11000, 0x11002),
    (0x11038, 0x11046), (0x11070, 0x11070), (0x11073, 0x11074), (0x1107f, 0x11082),
    (0x110b0, 0x110ba), (0x110c2, 0x110c2), (0x11100, 0x11102), (0x11127, 0x11134),
    (0x11145, 0x11146), (0x11173, 0x11173), (0x11180, 0x11182), (0x111b3, 0x111c0),
    (0x111c9, 0x111cc), (0x111ce, 0x111cf), (0x1122c, 0x11237), (0x1123e, 0x1123e),
    (0x112df, 0x112ea), (0x11300, 0x11303), (0x1133b, 0x1133c), (0x1133e, 0x11344),
    (0x11347, 0x11348), (0x1134b, 0x1134d), (0x11357, 0x11357), (0x11362, 0x11363),
    (0x11366, 0x1136c), (0x11370, 0x11374), (0x11435, 0x11446), (0x1145e, 0x1145e),
    (0x114b0, 0x114c3), (0x115af, 0x115b5), (0x115b8, 0x115c0), (0x115dc, 0x115dd),
    (0x11630, 0x11640), (0x116ab, 0x116b7), (0x1171d, 0x1172b), (0x1182c, 0x1183a),
    (0x11930, 0x11935), (0x11937, 0x11938), (0x1193b, 0x1193e), (0x11940, 0x11940),
    (0x11942, 0x11943), (0x119d1, 0x119d7), (0x119da, 0x119e0), (0x119e4, 0x119e4),
    (0x11a01, 0x11a0a), (0x11a33, 0x11a39), (0x11a3b, 0x11a3e), (0x11a47, 0x11a47),
    (0x11a51, 0x11a5b), (0x11a8a, 0x11a99), (0x11c2f, 0x11c36), (0x11c38, 0x11c3f),
    (0x11c92, 0x11ca7), (0x11ca9, 0x11cb6), (0x11d31, 0x11d36), (0x11d3a, 0x11d3a),
    (0x11d3c, 0x11d3d), (0x11d3f, 0x11d45), (0x11d47, 0x11d47), (0x11d8a, 0x11d8e),
    (0x11d90, 0x11d91), (0x11d93, 0x11d97), (0x11ef3, 0x11ef6), (0x16af0, 0x16af4),
    (0x16b30, 0x16b36), (0x16f4f, 0x16f4f), (0x16f51, 0x16f87), (0x16f8f, 0x16f92),
    (0x16fe4, 0x16fe4), (0x16ff0, 0x16ff1), (0x1bc9d, 0x1bc9e), (0x1cf00, 0x1cf2d),
    (0x1cf30, 0x1cf46), (0x1d165, 0x1d169), (0x1d16d, 0x1d172), (0x1d17b, 0x1d182),
    (0x1d185, 0x1d18b), (0x1d1aa, 0x1d1ad), (0x1d242, 0x1d244), (0x1da00, 0x1da36),
    (0x1da3b, 0x1da6c), (0x1da75, 0x1da75), (0x1da84, 0x1da84), (0x1da9b, 0x1da9f),
    (0x1daa1, 0x1daaf), (0x1e000, 0x1e006), (0x1e008, 0x1e018), (0x1e01b, 0x1e021),
    (0x1e023, 0x1e024), (0x1e026, 0x1e02a), (0x1e130, 0x1e136), (0x1e2ae, 0x1e2ae),
    (0x1e2ec, 0x1e2ef), (0x1e8d0, 0x1e8d6), (0x1e944, 0x1e94a)]

/-- Marks, each with the characters it combines with and the characters that come of it. -/
def compositions : List (Nat × List (Nat × Nat)) := [
    (0x0300, [(0x0061, 0x00e0), (0x0065, 0x00e8), (0x0069, 0x00ec), (0x006f, 0x00f2), (0x0075,
      0x00f9), (0x00fc, 0x01dc), (0x006e, 0x01f9), (0x0435, 0x0450), (0x0438, 0x045d), (0x0113,
      0x1e15), (0x014d, 0x1e51), (0x0077, 0x1e81), (0x00e2, 0x1ea7), (0x0103, 0x1eb1), (0x00ea,
      0x1ec1), (0x00f4, 0x1ed3), (0x01a1, 0x1edd), (0x01b0, 0x1eeb), (0x0079, 0x1ef3), (0x1f00,
      0x1f02), (0x1f01, 0x1f03), (0x1f10, 0x1f12), (0x1f11, 0x1f13), (0x1f20, 0x1f22), (0x1f21,
      0x1f23), (0x1f30, 0x1f32), (0x1f31, 0x1f33), (0x1f40, 0x1f42), (0x1f41, 0x1f43), (0x1f50,
      0x1f52), (0x1f51, 0x1f53), (0x1f60, 0x1f62), (0x1f61, 0x1f63), (0x03b1, 0x1f70), (0x03b5,
      0x1f72), (0x03b7, 0x1f74), (0x03b9, 0x1f76), (0x03bf, 0x1f78), (0x03c5, 0x1f7a), (0x03c9,
      0x1f7c), (0x03ca, 0x1fd2), (0x03cb, 0x1fe2)]),
    (0x0301, [(0x0061, 0x00e1), (0x0065, 0x00e9), (0x0069, 0x00ed), (0x006f, 0x00f3), (0x0075,
      0x00fa), (0x0079, 0x00fd), (0x0063, 0x0107), (0x006c, 0x013a), (0x006e, 0x0144), (0x0072,
      0x0155), (0x0073, 0x015b), (0x007a, 0x017a), (0x00fc, 0x01d8), (0x0067, 0x01f5), (0x00e5,
      0x01fb), (0x00e6, 0x01fd), (0x00f8, 0x01ff), (0x03ca, 0x0390), (0x03b1, 0x03ac), (0x03b5,
      0x03ad), (0x03b7, 0x03ae), (0x03b9, 0x03af), (0x03cb, 0x03b0), (0x03bf, 0x03cc), (0x03c5,
      0x03cd), (0x03c9, 0x03ce), (0x0433, 0x0453), (0x043a, 0x045c), (0x00e7, 0x1e09), (0x0113,
      0x1e17), (0x00ef, 0x1e2f), (0x006b, 0x1e31), (0x006d, 0x1e3f), (0x00f5, 0x1e4d), (0x014d,
      0x1e53), (0x0070, 0x1e55), (0x0169, 0x1e79), (0x0077, 0x1e83), (0x00e2, 0x1ea5), (0x0103,
      0x1eaf), (0x00ea, 0x1ebf), (0x00f4, 0x1ed1), (0x01a1, 0x1edb), (0x01b0, 0x1ee9), (0x1f00,
      0x1f04), (0x1f01, 0x1f05), (0x1f10, 0x1f14), (0x1f11, 0x1f15), (0x1f20, 0x1f24), (0x1f21,
      0x1f25), (0x1f30, 0x1f34), (0x1f31, 0x1f35), (0x1f40, 0x1f44), (0x1f41, 0x1f45), (0x1f50,
      0x1f54), (0x1f51, 0x1f55), (0x1f60, 0x1f64), (0x1f61, 0x1f65)]),
    (0x0302, [(0x0061, 0x00e2), (0x0065, 0x00ea), (0x0069, 0x00ee), (0x006f, 0x00f4), (0x0075,
      0x00fb), (0x0063, 0x0109), (0x0067, 0x011d), (0x0068, 0x0125), (0x006a, 0x0135), (0x0073,
      0x015d), (0x0077, 0x0175), (0x0079, 0x0177), (0x007a, 0x1e91), (0x1ea1, 0x1ead), (0x1eb9,
      0x1ec7), (0x1ecd, 0x1ed9)]),
    (0x0303, [(0x0061, 0x00e3), (0x006e, 0x00f1), (0x006f, 0x00f5), (0x0069, 0x0129), (0x0075,
      0x0169), (0x0076, 0x1e7d), (0x00e2, 0x1eab), (0x0103, 0x1eb5), (0x0065, 0x1ebd), (0x00ea,
      0x1ec5), (0x00f4, 0x1ed7), (0x01a1, 0x1ee1), (0x01b0, 0x1eef), (0x0079, 0x1ef9)]),
    (0x0304, [(0x0061, 0x0101), (0x0065, 0x0113), (0x0069, 0x012b), (0x006f, 0x014d), (0x0075,
      0x016b), (0x00fc, 0x01d6), (0x00e4, 0x01df), (0x0227, 0x01e1), (0x00e6, 0x01e3), (0x01eb,
      0x01ed), (0x00f6, 0x022b), (0x00f5, 0x022d), (0x022f, 0x0231), (0x0079, 0x0233), (0x0438,
      0x04e3), (0x0443, 0x04ef), (0x0067, 0x1e21), (0x1e37, 0x1e39), (0x1e5b, 0x1e5d), (0x03b1,
      0x1fb1), (0x03b9, 0x1fd1), (0x03c5, 0x1fe1)]),
    (0x0306, [(0x0061, 0x0103), (0x0065, 0x0115), (0x0067, 0x011f), (0x0069, 0x012d), (0x006f,
      0x014f), (0x0075, 0x016d), (0x0438, 0x0439), (0x0443, 0x045e), (0x0436, 0x04c2), (0x0430,
      0x04d1), (0x0435, 0x04d7), (0x0229, 0x1e1d), (0x1ea1, 0x1eb7), (0x03b1, 0x1fb0), (0x03b9,
      0x1fd0), (0x03c5, 0x1fe0)]),
    (0x0307, [(0x0063, 0x010b), (0x0065, 0x0117), (0x0067, 0x0121), (0x007a, 0x017c), (0x0061,
      0x0227), (0x006f, 0x022f), (0x0062, 0x1e03), (0x0064, 0x1e0b), (0x0066, 0x1e1f), (0x0068,
      0x1e23), (0x006d, 0x1e41), (0x006e, 0x1e45), (0x0070, 0x1e57), (0x0072, 0x1e59), (0x0073,
      0x1e61), (0x015b, 0x1e65), (0x0161, 0x1e67), (0x1e63, 0x1e69), (0x0074, 0x1e6b), (0x0077,
      0x1e87), (0x0078, 0x1e8b), (0x0079, 0x1e8f)]),
    (0x0308, [(0x0061, 0x00e4), (0x0065, 0x00eb), (0x0069, 0x00ef), (0x006f, 0x00f6), (0x0075,
      0x00fc), (0x0079, 0x00ff), (0x03b9, 0x03ca), (0x03c5, 0x03cb), (0x0435, 0x0451), (0x0456,
      0x0457), (0x0430, 0x04d3), (0x04d9, 0x04db), (0x0436, 0x04dd), (0x0437, 0x04df), (0x0438,
      0x04e5), (0x043e, 0x04e7), (0x04e9, 0x04eb), (0x044d, 0x04ed), (0x0443, 0x04f1), (0x0447,
      0x04f5), (0x044b, 0x04f9), (0x0068, 0x1e27), (0x00f5, 0x1e4f), (0x016b, 0x1e7b), (0x0077,
      0x1e85), (0x0078, 0x1e8d), (0x0074, 0x1e97)]),
    (0x0309, [(0x0061, 0x1ea3), (0x00e2, 0x1ea9), (0x0103, 0x1eb3), (0x0065, 0x1ebb), (0x00ea,
      0x1ec3), (0x0069, 0x1ec9), (0x006f, 0x1ecf), (0x00f4, 0x1ed5), (0x01a1, 0x1edf), (0x0075,
      0x1ee7), (0x01b0, 0x1eed), (0x0079, 0x1ef7)]),
    (0x030a, [(0x0061, 0x00e5), (0x0075, 0x016f), (0x0077, 0x1e98), (0x0079, 0x1e99)]),
    (0x030b, [(0x006f, 0x0151), (0x0075, 0x0171), (0x0443, 0x04f3)]),
    (0x030c, [(0x0063, 0x010d), (0x0064, 0x010f), (0x0065, 0x011b), (0x006c, 0x013e), (0x006e,
      0x0148), (0x0072, 0x0159), (0x0073, 0x0161), (0x0074, 0x0165), (0x007a, 0x017e), (0x0061,
      0x01ce), (0x0069, 0x01d0), (0x006f, 0x01d2), (0x0075, 0x01d4), (0x00fc, 0x01da), (0x0067,
      0x01e7), (0x006b, 0x01e9), (0x0292, 0x01ef), (0x006a, 0x01f0), (0x0068, 0x021f)]),
    (0x030f, [(0x0061, 0x0201), (0x0065, 0x0205), (0x0069, 0x0209), (0x006f, 0x020d), (0x0072,
      0x0211), (0x0075, 0x0215), (0x0475, 0x0477)]),
    (0x0311, [(0x0061, 0x0203), (0x0065, 0x0207), (0x0069, 0x020b), (0x006f, 0x020f), (0x0072,
      0x0213), (0x0075, 0x0217)]),
    (0x0313, [(0x03b1, 0x1f00), (0x03b5, 0x1f10), (0x03b7, 0x1f20), (0x03b9, 0x1f30), (0x03bf,
      0x1f40), (0x03c5, 0x1f50), (0x03c9, 0x1f60), (0x03c1, 0x1fe4)]),
    (0x0314, [(0x03b1, 0x1f01), (0x03b5, 0x1f11), (0x03b7, 0x1f21), (0x03b9, 0x1f31), (0x03bf,
      0x1f41), (0x03c5, 0x1f51), (0x03c9, 0x1f61), (0x03c1, 0x1fe5)]),
    (0x031b, [(0x006f, 0x01a1), (0x0075, 0x01b0)]),
    (0x0323, [(0x0062, 0x1e05), (0x0064, 0x1e0d), (0x0068, 0x1e25), (0x006b, 0x1e33), (0x006c,
      0x1e37), (0x006d, 0x1e43), (0x006e, 0x1e47), (0x0072, 0x1e5b), (0x0073, 0x1e63), (0x0074,
      0x1e6d), (0x0076, 0x1e7f), (0x0077, 0x1e89), (0x007a, 0x1e93), (0x0061, 0x1ea1), (0x0065,
      0x1eb9), (0x0069, 0x1ecb), (0x006f, 0x1ecd), (0x01a1, 0x1ee3), (0x0075, 0x1ee5), (0x01b0,
      0x1ef1), (0x0079, 0x1ef5)]),
    (0x0324, [(0x0075, 0x1e73)]),
    (0x0325, [(0x0061, 0x1e01)]),
    (0x0326, [(0x0073, 0x0219), (0x0074, 0x021b)]),
    (0x0327, [(0x0063, 0x00e7), (0x0067, 0x0123), (0x006b, 0x0137), (0x006c, 0x013c), (0x006e,
      0x0146), (0x0072, 0x0157), (0x0073, 0x015f), (0x0074, 0x0163), (0x0065, 0x0229), (0x0064,
      0x1e11), (0x0068, 0x1e29)]),
    (0x0328, [(0x0061, 0x0105), (0x0065, 0x0119), (0x0069, 0x012f), (0x0075, 0x0173), (0x006f,
      0x01eb)]),
    (0x032d, [(0x0064, 0x1e13), (0x0065, 0x1e19), (0x006c, 0x1e3d), (0x006e, 0x1e4b), (0x0074,
      0x1e71), (0x0075, 0x1e77)]),
    (0x032e, [(0x0068, 0x1e2b)]),
    (0x0330, [(0x0065, 0x1e1b), (0x0069, 0x1e2d), (0x0075, 0x1e75)]),
    (0x0331, [(0x0062, 0x1e07), (0x0064, 0x1e0f), (0x006b, 0x1e35), (0x006c, 0x1e3b), (0x006e,
      0x1e49), (0x0072, 0x1e5f), (0x0074, 0x1e6f), (0x007a, 0x1e95), (0x0068, 0x1e96)]),
    (0x0338, [(0x2190, 0x219a), (0x2192, 0x219b), (0x2194, 0x21ae), (0x21d0, 0x21cd), (0x21d4,
      0x21ce), (0x21d2, 0x21cf), (0x2203, 0x2204), (0x2208, 0x2209), (0x220b, 0x220c), (0x2223,
      0x2224), (0x2225, 0x2226), (0x223c, 0x2241), (0x2243, 0x2244), (0x2245, 0x2247), (0x2248,
      0x2249), (0x003d, 0x2260), (0x2261, 0x2262), (0x224d, 0x226d), (0x003c, 0x226e), (0x003e,
      0x226f), (0x2264, 0x2270), (0x2265, 0x2271), (0x2272, 0x2274), (0x2273, 0x2275), (0x2276,
      0x2278), (0x2277, 0x2279), (0x227a, 0x2280), (0x227b, 0x2281), (0x2282, 0x2284), (0x2283,
      0x2285), (0x2286, 0x2288), (0x2287, 0x2289), (0x22a2, 0x22ac), (0x22a8, 0x22ad), (0x22a9,
      0x22ae), (0x22ab, 0x22af), (0x227c, 0x22e0), (0x227d, 0x22e1), (0x2291, 0x22e2), (0x2292,
      0x22e3), (0x22b2, 0x22ea), (0x22b3, 0x22eb), (0x22b4, 0x22ec), (0x22b5, 0x22ed)]),
    (0x0342, [(0x1f00, 0x1f06), (0x1f01, 0x1f07), (0x1f20, 0x1f26), (0x1f21, 0x1f27), (0x1f30,
      0x1f36), (0x1f31, 0x1f37), (0x1f50, 0x1f56), (0x1f51, 0x1f57), (0x1f60, 0x1f66), (0x1f61,
      0x1f67), (0x03b1, 0x1fb6), (0x03b7, 0x1fc6), (0x03b9, 0x1fd6), (0x03ca, 0x1fd7), (0x03c5,
      0x1fe6), (0x03cb, 0x1fe7), (0x03c9, 0x1ff6)]),
    (0x0653, [(0x0627, 0x0622)]),
    (0x0654, [(0x0627, 0x0623), (0x0648, 0x0624), (0x064a, 0x0626), (0x06d5, 0x06c0), (0x06c1,
      0x06c2), (0x06d2, 0x06d3)]),
    (0x0655, [(0x0627, 0x0625)]),
    (0x093c, [(0x0928, 0x0929), (0x0930, 0x0931), (0x0933, 0x0934)]),
    (0x09be, [(0x09c7, 0x09cb)]),
    (0x09d7, [(0x09c7, 0x09cc)]),
    (0x0b3e, [(0x0b47, 0x0b4b)]),
    (0x0b56, [(0x0b47, 0x0b48)]),
    (0x0b57, [(0x0b47, 0x0b4c)]),
    (0x0bbe, [(0x0bc6, 0x0bca), (0x0bc7, 0x0bcb)]),
    (0x0bd7, [(0x0b92, 0x0b94), (0x0bc6, 0x0bcc)]),
    (0x0c56, [(0x0c46, 0x0c48)]),
    (0x0cc2, [(0x0cc6, 0x0cca)]),
    (0x0cd5, [(0x0cbf, 0x0cc0), (0x0cc6, 0x0cc7), (0x0cca, 0x0ccb)]),
    (0x0cd6, [(0x0cc6, 0x0cc8)]),
    (0x0d3e, [(0x0d46, 0x0d4a), (0x0d47, 0x0d4b)]),
    (0x0d57, [(0x0d46, 0x0d4c)]),
    (0x0dca, [(0x0dd9, 0x0dda), (0x0ddc, 0x0ddd)]),
    (0x0dcf, [(0x0dd9, 0x0ddc)]),
    (0x0ddf, [(0x0dd9, 0x0dde)]),
    (0x102e, [(0x1025, 0x1026)]),
    (0x1b35, [(0x1b05, 0x1b06), (0x1b07, 0x1b08), (0x1b09, 0x1b0a), (0x1b0b, 0x1b0c), (0x1b0d,
      0x1b0e), (0x1b11, 0x1b12), (0x1b3a, 0x1b3b), (0x1b3c, 0x1b3d), (0x1b3e, 0x1b40), (0x1b3f,
      0x1b41), (0x1b42, 0x1b43)]),
    (0x3099, [(0x304b, 0x304c), (0x304d, 0x304e), (0x304f, 0x3050), (0x3051, 0x3052), (0x3053,
      0x3054), (0x3055, 0x3056), (0x3057, 0x3058), (0x3059, 0x305a), (0x305b, 0x305c), (0x305d,
      0x305e), (0x305f, 0x3060), (0x3061, 0x3062), (0x3064, 0x3065), (0x3066, 0x3067), (0x3068,
      0x3069), (0x306f, 0x3070), (0x3072, 0x3073), (0x3075, 0x3076), (0x3078, 0x3079), (0x307b,
      0x307c), (0x3046, 0x3094), (0x309d, 0x309e), (0x30ab, 0x30ac), (0x30ad, 0x30ae), (0x30af,
      0x30b0), (0x30b1, 0x30b2), (0x30b3, 0x30b4), (0x30b5, 0x30b6), (0x30b7, 0x30b8), (0x30b9,
      0x30ba), (0x30bb, 0x30bc), (0x30bd, 0x30be), (0x30bf, 0x30c0), (0x30c1, 0x30c2), (0x30c4,
      0x30c5), (0x30c6, 0x30c7), (0x30c8, 0x30c9), (0x30cf, 0x30d0), (0x30d2, 0x30d3), (0x30d5,
      0x30d6), (0x30d8, 0x30d9), (0x30db, 0x30dc), (0x30a6, 0x30f4), (0x30ef, 0x30f7), (0x30f0,
      0x30f8), (0x30f1, 0x30f9), (0x30f2, 0x30fa), (0x30fd, 0x30fe)]),
    (0x309a, [(0x306f, 0x3071), (0x3072, 0x3074), (0x3075, 0x3077), (0x3078, 0x307a), (0x307b,
      0x307d), (0x30cf, 0x30d1), (0x30d2, 0x30d4), (0x30d5, 0x30d7), (0x30d8, 0x30da), (0x30db,
      0x30dd)])]

end Stencil.Url.Folding
