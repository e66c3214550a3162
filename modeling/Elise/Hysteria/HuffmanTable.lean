/-
Elise/Hysteria/HuffmanTable.lean

The two tables of src/protocol/hysteria/huffman_table.rs.

`encodeTable` has the word of each byte, as its length and the number in it, and
at last the word that ends a text and is never written.  `decodeTable` has
fifteen tables of 256 entries, one after the other: an entry is a byte and how
many bits of the index its word takes, or, with the highest bit set, the table
that goes on.
-/
import Mathlib

namespace Elise

namespace Hysteria

/-- `ENCODE_TABLE` -/
def encodeTable : List (Nat × Nat) := [
  (13, 0x1ff8), (23, 0x7fffd8), (28, 0xfffffe2), (28, 0xfffffe3), (28, 0xfffffe4), (28, 0xfffffe5),
  (28, 0xfffffe6), (28, 0xfffffe7), (28, 0xfffffe8), (24, 0xffffea), (30, 0x3ffffffc), (28, 0xfffffe9),
  (28, 0xfffffea), (30, 0x3ffffffd), (28, 0xfffffeb), (28, 0xfffffec), (28, 0xfffffed),
  (28, 0xfffffee), (28, 0xfffffef), (28, 0xffffff0), (28, 0xffffff1), (28, 0xffffff2),
  (30, 0x3ffffffe), (28, 0xffffff3), (28, 0xffffff4), (28, 0xffffff5), (28, 0xffffff6),
  (28, 0xffffff7), (28, 0xffffff8), (28, 0xffffff9), (28, 0xffffffa), (28, 0xffffffb), (6, 0x14),
  (10, 0x3f8), (10, 0x3f9), (12, 0xffa), (13, 0x1ff9), (6, 0x15), (8, 0xf8), (11, 0x7fa), (10, 0x3fa),
  (10, 0x3fb), (8, 0xf9), (11, 0x7fb), (8, 0xfa), (6, 0x16), (6, 0x17), (6, 0x18), (5, 0x0), (5, 0x1),
  (5, 0x2), (6, 0x19), (6, 0x1a), (6, 0x1b), (6, 0x1c), (6, 0x1d), (6, 0x1e), (6, 0x1f), (7, 0x5c),
  (8, 0xfb), (15, 0x7ffc), (6, 0x20), (12, 0xffb), (10, 0x3fc), (13, 0x1ffa), (6, 0x21), (7, 0x5d),
  (7, 0x5e), (7, 0x5f), (7, 0x60), (7, 0x61), (7, 0x62), (7, 0x63), (7, 0x64), (7, 0x65), (7, 0x66),
  (7, 0x67), (7, 0x68), (7, 0x69), (7, 0x6a), (7, 0x6b), (7, 0x6c), (7, 0x6d), (7, 0x6e), (7, 0x6f),
  (7, 0x70), (7, 0x71), (7, 0x72), (8, 0xfc), (7, 0x73), (8, 0xfd), (13, 0x1ffb), (19, 0x7fff0),
  (13, 0x1ffc), (14, 0x3ffc), (6, 0x22), (15, 0x7ffd), (5, 0x3), (6, 0x23), (5, 0x4), (6, 0x24),
  (5, 0x5), (6, 0x25), (6, 0x26), (6, 0x27), (5, 0x6), (7, 0x74), (7, 0x75), (6, 0x28), (6, 0x29),
  (6, 0x2a), (5, 0x7), (6, 0x2b), (7, 0x76), (6, 0x2c), (5, 0x8), (5, 0x9), (6, 0x2d), (7, 0x77),
  (7, 0x78), (7, 0x79), (7, 0x7a), (7, 0x7b), (15, 0x7ffe), (11, 0x7fc), (14, 0x3ffd), (13, 0x1ffd),
  (28, 0xffffffc), (20, 0xfffe6), (22, 0x3fffd2), (20, 0xfffe7), (20, 0xfffe8), (22, 0x3fffd3),
  (22, 0x3fffd4), (22, 0x3fffd5), (23, 0x7fffd9), (22, 0x3fffd6), (23, 0x7fffda), (23, 0x7fffdb),
  (23, 0x7fffdc), (23, 0x7fffdd), (23, 0x7fffde), (24, 0xffffeb), (23, 0x7fffdf), (24, 0xffffec),
  (24, 0xffffed), (22, 0x3fffd7), (23, 0x7fffe0), (24, 0xffffee), (23, 0x7fffe1), (23, 0x7fffe2),
  (23, 0x7fffe3), (23, 0x7fffe4), (21, 0x1fffdc), (22, 0x3fffd8), (23, 0x7fffe5), (22, 0x3fffd9),
  (23, 0x7fffe6), (23, 0x7fffe7), (24, 0xffffef), (22, 0x3fffda), (21, 0x1fffdd), (20, 0xfffe9),
  (22, 0x3fffdb), (22, 0x3fffdc), (23, 0x7fffe8), (23, 0x7fffe9), (21, 0x1fffde), (23, 0x7fffea),
  (22, 0x3fffdd), (22, 0x3fffde), (24, 0xfffff0), (21, 0x1fffdf), (22, 0x3fffdf), (23, 0x7fffeb),
  (23, 0x7fffec), (21, 0x1fffe0), (21, 0x1fffe1), (22, 0x3fffe0), (21, 0x1fffe2), (23, 0x7fffed),
  (22, 0x3fffe1), (23, 0x7fffee), (23, 0x7fffef), (20, 0xfffea), (22, 0x3fffe2), (22, 0x3fffe3),
  (22, 0x3fffe4), (23, 0x7ffff0), (22, 0x3fffe5), (22, 0x3fffe6), (23, 0x7ffff1), (26, 0x3ffffe0),
  (26, 0x3ffffe1), (20, 0xfffeb), (19, 0x7fff1), (22, 0x3fffe7), (23, 0x7ffff2), (22, 0x3fffe8),
  (25, 0x1ffffec), (26, 0x3ffffe2), (26, 0x3ffffe3), (26, 0x3ffffe4), (27, 0x7ffffde), (27, 0x7ffffdf),
  (26, 0x3ffffe5), (24, 0xfffff1), (25, 0x1ffffed), (19, 0x7fff2), (21, 0x1fffe3), (26, 0x3ffffe6),
  (27, 0x7ffffe0), (27, 0x7ffffe1), (26, 0x3ffffe7), (27, 0x7ffffe2), (24, 0xfffff2), (21, 0x1fffe4),
  (21, 0x1fffe5), (26, 0x3ffffe8), (26, 0x3ffffe9), (28, 0xffffffd), (27, 0x7ffffe3), (27, 0x7ffffe4),
  (27, 0x7ffffe5), (20, 0xfffec), (24, 0xfffff3), (20, 0xfffed), (21, 0x1fffe6), (22, 0x3fffe9),
  (21, 0x1fffe7), (21, 0x1fffe8), (23, 0x7ffff3), (22, 0x3fffea), (22, 0x3fffeb), (25, 0x1ffffee),
  (25, 0x1ffffef), (24, 0xfffff4), (24, 0xfffff5), (26, 0x3ffffea), (23, 0x7ffff4), (26, 0x3ffffeb),
  (27, 0x7ffffe6), (26, 0x3ffffec), (26, 0x3ffffed), (27, 0x7ffffe7), (27, 0x7ffffe8), (27, 0x7ffffe9),
  (27, 0x7ffffea), (27, 0x7ffffeb), (28, 0xffffffe), (27, 0x7ffffec), (27, 0x7ffffed), (27, 0x7ffffee),
  (27, 0x7ffffef), (27, 0x7fffff0), (26, 0x3ffffee), (30, 0x3fffffff)]

def decodeRow0 : List Nat := [
  0x0530, 0x0530, 0x0530, 0x0530, 0x0530, 0x0530, 0x0530, 0x0530, 0x0531, 0x0531, 0x0531, 0x0531, 0x0531, 0x0531, 0x0531, 0x0531,
  0x0532, 0x0532, 0x0532, 0x0532, 0x0532, 0x0532, 0x0532, 0x0532, 0x0561, 0x0561, 0x0561, 0x0561, 0x0561, 0x0561, 0x0561, 0x0561,
  0x0563, 0x0563, 0x0563, 0x0563, 0x0563, 0x0563, 0x0563, 0x0563, 0x0565, 0x0565, 0x0565, 0x0565, 0x0565, 0x0565, 0x0565, 0x0565,
  0x0569, 0x0569, 0x0569, 0x0569, 0x0569, 0x0569, 0x0569, 0x0569, 0x056f, 0x056f, 0x056f, 0x056f, 0x056f, 0x056f, 0x056f, 0x056f,
  0x0573, 0x0573, 0x0573, 0x0573, 0x0573, 0x0573, 0x0573, 0x0573, 0x0574, 0x0574, 0x0574, 0x0574, 0x0574, 0x0574, 0x0574, 0x0574,
  0x0620, 0x0620, 0x0620, 0x0620, 0x0625, 0x0625, 0x0625, 0x0625, 0x062d, 0x062d, 0x062d, 0x062d, 0x062e, 0x062e, 0x062e, 0x062e,
  0x062f, 0x062f, 0x062f, 0x062f, 0x0633, 0x0633, 0x0633, 0x0633, 0x0634, 0x0634, 0x0634, 0x0634, 0x0635, 0x0635, 0x0635, 0x0635,
  0x0636, 0x0636, 0x0636, 0x0636, 0x0637, 0x0637, 0x0637, 0x0637, 0x0638, 0x0638, 0x0638, 0x0638, 0x0639, 0x0639, 0x0639, 0x0639,
  0x063d, 0x063d, 0x063d, 0x063d, 0x0641, 0x0641, 0x0641, 0x0641, 0x065f, 0x065f, 0x065f, 0x065f, 0x0662, 0x0662, 0x0662, 0x0662,
  0x0664, 0x0664, 0x0664, 0x0664, 0x0666, 0x0666, 0x0666, 0x0666, 0x0667, 0x0667, 0x0667, 0x0667, 0x0668, 0x0668, 0x0668, 0x0668,
  0x066c, 0x066c, 0x066c, 0x066c, 0x066d, 0x066d, 0x066d, 0x066d, 0x066e, 0x066e, 0x066e, 0x066e, 0x0670, 0x0670, 0x0670, 0x0670,
  0x0672, 0x0672, 0x0672, 0x0672, 0x0675, 0x0675, 0x0675, 0x0675, 0x073a, 0x073a, 0x0742, 0x0742, 0x0743, 0x0743, 0x0744, 0x0744,
  0x0745, 0x0745, 0x0746, 0x0746, 0x0747, 0x0747, 0x0748, 0x0748, 0x0749, 0x0749, 0x074a, 0x074a, 0x074b, 0x074b, 0x074c, 0x074c,
  0x074d, 0x074d, 0x074e, 0x074e, 0x074f, 0x074f, 0x0750, 0x0750, 0x0751, 0x0751, 0x0752, 0x0752, 0x0753, 0x0753, 0x0754, 0x0754,
  0x0755, 0x0755, 0x0756, 0x0756, 0x0757, 0x0757, 0x0759, 0x0759, 0x076a, 0x076a, 0x076b, 0x076b, 0x0771, 0x0771, 0x0776, 0x0776,
  0x0777, 0x0777, 0x0778, 0x0778, 0x0779, 0x0779, 0x077a, 0x077a, 0x0826, 0x082a, 0x082c, 0x083b, 0x0858, 0x085a, 0x8500, 0x8100]

def decodeRow1 : List Nat := [
  0x023f, 0x023f, 0x023f, 0x023f, 0x023f, 0x023f, 0x023f, 0x023f, 0x023f, 0x023f, 0x023f, 0x023f, 0x023f, 0x023f, 0x023f, 0x023f,
  0x023f, 0x023f, 0x023f, 0x023f, 0x023f, 0x023f, 0x023f, 0x023f, 0x023f, 0x023f, 0x023f, 0x023f, 0x023f, 0x023f, 0x023f, 0x023f,
  0x023f, 0x023f, 0x023f, 0x023f, 0x023f, 0x023f, 0x023f, 0x023f, 0x023f, 0x023f, 0x023f, 0x023f, 0x023f, 0x023f, 0x023f, 0x023f,
  0x023f, 0x023f, 0x023f, 0x023f, 0x023f, 0x023f, 0x023f, 0x023f, 0x023f, 0x023f, 0x023f, 0x023f, 0x023f, 0x023f, 0x023f, 0x023f,
  0x0327, 0x0327, 0x0327, 0x0327, 0x0327, 0x0327, 0x0327, 0x0327, 0x0327, 0x0327, 0x0327, 0x0327, 0x0327, 0x0327, 0x0327, 0x0327,
  0x0327, 0x0327, 0x0327, 0x0327, 0x0327, 0x0327, 0x0327, 0x0327, 0x0327, 0x0327, 0x0327, 0x0327, 0x0327, 0x0327, 0x0327, 0x0327,
  0x032b, 0x032b, 0x032b, 0x032b, 0x032b, 0x032b, 0x032b, 0x032b, 0x032b, 0x032b, 0x032b, 0x032b, 0x032b, 0x032b, 0x032b, 0x032b,
  0x032b, 0x032b, 0x032b, 0x032b, 0x032b, 0x032b, 0x032b, 0x032b, 0x032b, 0x032b, 0x032b, 0x032b, 0x032b, 0x032b, 0x032b, 0x032b,
  0x037c, 0x037c, 0x037c, 0x037c, 0x037c, 0x037c, 0x037c, 0x037c, 0x037c, 0x037c, 0x037c, 0x037c, 0x037c, 0x037c, 0x037c, 0x037c,
  0x037c, 0x037c, 0x037c, 0x037c, 0x037c, 0x037c, 0x037c, 0x037c, 0x037c, 0x037c, 0x037c, 0x037c, 0x037c, 0x037c, 0x037c, 0x037c,
  0x0423, 0x0423, 0x0423, 0x0423, 0x0423, 0x0423, 0x0423, 0x0423, 0x0423, 0x0423, 0x0423, 0x0423, 0x0423, 0x0423, 0x0423, 0x0423,
  0x043e, 0x043e, 0x043e, 0x043e, 0x043e, 0x043e, 0x043e, 0x043e, 0x043e, 0x043e, 0x043e, 0x043e, 0x043e, 0x043e, 0x043e, 0x043e,
  0x0500, 0x0500, 0x0500, 0x0500, 0x0500, 0x0500, 0x0500, 0x0500, 0x0524, 0x0524, 0x0524, 0x0524, 0x0524, 0x0524, 0x0524, 0x0524,
  0x0540, 0x0540, 0x0540, 0x0540, 0x0540, 0x0540, 0x0540, 0x0540, 0x055b, 0x055b, 0x055b, 0x055b, 0x055b, 0x055b, 0x055b, 0x055b,
  0x055d, 0x055d, 0x055d, 0x055d, 0x055d, 0x055d, 0x055d, 0x055d, 0x057e, 0x057e, 0x057e, 0x057e, 0x057e, 0x057e, 0x057e, 0x057e,
  0x065e, 0x065e, 0x065e, 0x065e, 0x067d, 0x067d, 0x067d, 0x067d, 0x073c, 0x073c, 0x0760, 0x0760, 0x077b, 0x077b, 0x8600, 0x8200]

def decodeRow2 : List Nat := [
  0x05b0, 0x05b0, 0x05b0, 0x05b0, 0x05b0, 0x05b0, 0x05b0, 0x05b0, 0x05b1, 0x05b1, 0x05b1, 0x05b1, 0x05b1, 0x05b1, 0x05b1, 0x05b1,
  0x05b3, 0x05b3, 0x05b3, 0x05b3, 0x05b3, 0x05b3, 0x05b3, 0x05b3, 0x05d1, 0x05d1, 0x05d1, 0x05d1, 0x05d1, 0x05d1, 0x05d1, 0x05d1,
  0x05d8, 0x05d8, 0x05d8, 0x05d8, 0x05d8, 0x05d8, 0x05d8, 0x05d8, 0x05d9, 0x05d9, 0x05d9, 0x05d9, 0x05d9, 0x05d9, 0x05d9, 0x05d9,
  0x05e3, 0x05e3, 0x05e3, 0x05e3, 0x05e3, 0x05e3, 0x05e3, 0x05e3, 0x05e5, 0x05e5, 0x05e5, 0x05e5, 0x05e5, 0x05e5, 0x05e5, 0x05e5,
  0x05e6, 0x05e6, 0x05e6, 0x05e6, 0x05e6, 0x05e6, 0x05e6, 0x05e6, 0x0681, 0x0681, 0x0681, 0x0681, 0x0684, 0x0684, 0x0684, 0x0684,
  0x0685, 0x0685, 0x0685, 0x0685, 0x0686, 0x0686, 0x0686, 0x0686, 0x0688, 0x0688, 0x0688, 0x0688, 0x0692, 0x0692, 0x0692, 0x0692,
  0x069a, 0x069a, 0x069a, 0x069a, 0x069c, 0x069c, 0x069c, 0x069c, 0x06a0, 0x06a0, 0x06a0, 0x06a0, 0x06a3, 0x06a3, 0x06a3, 0x06a3,
  0x06a4, 0x06a4, 0x06a4, 0x06a4, 0x06a9, 0x06a9, 0x06a9, 0x06a9, 0x06aa, 0x06aa, 0x06aa, 0x06aa, 0x06ad, 0x06ad, 0x06ad, 0x06ad,
  0x06b2, 0x06b2, 0x06b2, 0x06b2, 0x06b5, 0x06b5, 0x06b5, 0x06b5, 0x06b9, 0x06b9, 0x06b9, 0x06b9, 0x06ba, 0x06ba, 0x06ba, 0x06ba,
  0x06bb, 0x06bb, 0x06bb, 0x06bb, 0x06bd, 0x06bd, 0x06bd, 0x06bd, 0x06be, 0x06be, 0x06be, 0x06be, 0x06c4, 0x06c4, 0x06c4, 0x06c4,
  0x06c6, 0x06c6, 0x06c6, 0x06c6, 0x06e4, 0x06e4, 0x06e4, 0x06e4, 0x06e8, 0x06e8, 0x06e8, 0x06e8, 0x06e9, 0x06e9, 0x06e9, 0x06e9,
  0x0701, 0x0701, 0x0787, 0x0787, 0x0789, 0x0789, 0x078a, 0x078a, 0x078b, 0x078b, 0x078c, 0x078c, 0x078d, 0x078d, 0x078f, 0x078f,
  0x0793, 0x0793, 0x0795, 0x0795, 0x0796, 0x0796, 0x0797, 0x0797, 0x0798, 0x0798, 0x079b, 0x079b, 0x079d, 0x079d, 0x079e, 0x079e,
  0x07a5, 0x07a5, 0x07a6, 0x07a6, 0x07a8, 0x07a8, 0x07ae, 0x07ae, 0x07af, 0x07af, 0x07b4, 0x07b4, 0x07b6, 0x07b6, 0x07b7, 0x07b7,
  0x07bc, 0x07bc, 0x07bf, 0x07bf, 0x07c5, 0x07c5, 0x07e7, 0x07e7, 0x07ef, 0x07ef, 0x0809, 0x088e, 0x0890, 0x0891, 0x0894, 0x089f,
  0x08ab, 0x08ce, 0x08d7, 0x08e1, 0x08ec, 0x08ed, 0x8800, 0x8d00, 0x8700, 0x8900, 0x8c00, 0x8a00, 0x8b00, 0x8e00, 0x8300, 0x8400]

def decodeRow3 : List Nat := [
  0x03fe, 0x03fe, 0x03fe, 0x03fe, 0x03fe, 0x03fe, 0x03fe, 0x03fe, 0x03fe, 0x03fe, 0x03fe, 0x03fe, 0x03fe, 0x03fe, 0x03fe, 0x03fe,
  0x03fe, 0x03fe, 0x03fe, 0x03fe, 0x03fe, 0x03fe, 0x03fe, 0x03fe, 0x03fe, 0x03fe, 0x03fe, 0x03fe, 0x03fe, 0x03fe, 0x03fe, 0x03fe,
  0x0402, 0x0402, 0x0402, 0x0402, 0x0402, 0x0402, 0x0402, 0x0402, 0x0402, 0x0402, 0x0402, 0x0402, 0x0402, 0x0402, 0x0402, 0x0402,
  0x0403, 0x0403, 0x0403, 0x0403, 0x0403, 0x0403, 0x0403, 0x0403, 0x0403, 0x0403, 0x0403, 0x0403, 0x0403, 0x0403, 0x0403, 0x0403,
  0x0404, 0x0404, 0x0404, 0x0404, 0x0404, 0x0404, 0x0404, 0x0404, 0x0404, 0x0404, 0x0404, 0x0404, 0x0404, 0x0404, 0x0404, 0x0404,
  0x0405, 0x0405, 0x0405, 0x0405, 0x0405, 0x0405, 0x0405, 0x0405, 0x0405, 0x0405, 0x0405, 0x0405, 0x0405, 0x0405, 0x0405, 0x0405,
  0x0406, 0x0406, 0x0406, 0x0406, 0x0406, 0x0406, 0x0406, 0x0406, 0x0406, 0x0406, 0x0406, 0x0406, 0x0406, 0x0406, 0x0406, 0x0406,
  0x0407, 0x0407, 0x0407, 0x0407, 0x0407, 0x0407, 0x0407, 0x0407, 0x0407, 0x0407, 0x0407, 0x0407, 0x0407, 0x0407, 0x0407, 0x0407,
  0x0408, 0x0408, 0x0408, 0x0408, 0x0408, 0x0408, 0x0408, 0x0408, 0x0408, 0x0408, 0x0408, 0x0408, 0x0408, 0x0408, 0x0408, 0x0408,
  0x040b, 0x040b, 0x040b, 0x040b, 0x040b, 0x040b, 0x040b, 0x040b, 0x040b, 0x040b, 0x040b, 0x040b, 0x040b, 0x040b, 0x040b, 0x040b,
  0x040c, 0x040c, 0x040c, 0x040c, 0x040c, 0x040c, 0x040c, 0x040c, 0x040c, 0x040c, 0x040c, 0x040c, 0x040c, 0x040c, 0x040c, 0x040c,
  0x040e, 0x040e, 0x040e, 0x040e, 0x040e, 0x040e, 0x040e, 0x040e, 0x040e, 0x040e, 0x040e, 0x040e, 0x040e, 0x040e, 0x040e, 0x040e,
  0x040f, 0x040f, 0x040f, 0x040f, 0x040f, 0x040f, 0x040f, 0x040f, 0x040f, 0x040f, 0x040f, 0x040f, 0x040f, 0x040f, 0x040f, 0x040f,
  0x0410, 0x0410, 0x0410, 0x0410, 0x0410, 0x0410, 0x0410, 0x0410, 0x0410, 0x0410, 0x0410, 0x0410, 0x0410, 0x0410, 0x0410, 0x0410,
  0x0411, 0x0411, 0x0411, 0x0411, 0x0411, 0x0411, 0x0411, 0x0411, 0x0411, 0x0411, 0x0411, 0x0411, 0x0411, 0x0411, 0x0411, 0x0411,
  0x0412, 0x0412, 0x0412, 0x0412, 0x0412, 0x0412, 0x0412, 0x0412, 0x0412, 0x0412, 0x0412, 0x0412, 0x0412, 0x0412, 0x0412, 0x0412]

def decodeRow4 : List Nat := [
  0x0413, 0x0413, 0x0413, 0x0413, 0x0413, 0x0413, 0x0413, 0x0413, 0x0413, 0x0413, 0x0413, 0x0413, 0x0413, 0x0413, 0x0413, 0x0413,
  0x0414, 0x0414, 0x0414, 0x0414, 0x0414, 0x0414, 0x0414, 0x0414, 0x0414, 0x0414, 0x0414, 0x0414, 0x0414, 0x0414, 0x0414, 0x0414,
  0x0415, 0x0415, 0x0415, 0x0415, 0x0415, 0x0415, 0x0415, 0x0415, 0x0415, 0x0415, 0x0415, 0x0415, 0x0415, 0x0415, 0x0415, 0x0415,
  0x0417, 0x0417, 0x0417, 0x0417, 0x0417, 0x0417, 0x0417, 0x0417, 0x0417, 0x0417, 0x0417, 0x0417, 0x0417, 0x0417, 0x0417, 0x0417,
  0x0418, 0x0418, 0x0418, 0x0418, 0x0418, 0x0418, 0x0418, 0x0418, 0x0418, 0x0418, 0x0418, 0x0418, 0x0418, 0x0418, 0x0418, 0x0418,
  0x0419, 0x0419, 0x0419, 0x0419, 0x0419, 0x0419, 0x0419, 0x0419, 0x0419, 0x0419, 0x0419, 0x0419, 0x0419, 0x0419, 0x0419, 0x0419,
  0x041a, 0x041a, 0x041a, 0x041a, 0x041a, 0x041a, 0x041a, 0x041a, 0x041a, 0x041a, 0x041a, 0x041a, 0x041a, 0x041a, 0x041a, 0x041a,
  0x041b, 0x041b, 0x041b, 0x041b, 0x041b, 0x041b, 0x041b, 0x041b, 0x041b, 0x041b, 0x041b, 0x041b, 0x041b, 0x041b, 0x041b, 0x041b,
  0x041c, 0x041c, 0x041c, 0x041c, 0x041c, 0x041c, 0x041c, 0x041c, 0x041c, 0x041c, 0x041c, 0x041c, 0x041c, 0x041c, 0x041c, 0x041c,
  0x041d, 0x041d, 0x041d, 0x041d, 0x041d, 0x041d, 0x041d, 0x041d, 0x041d, 0x041d, 0x041d, 0x041d, 0x041d, 0x041d, 0x041d, 0x041d,
  0x041e, 0x041e, 0x041e, 0x041e, 0x041e, 0x041e, 0x041e, 0x041e, 0x041e, 0x041e, 0x041e, 0x041e, 0x041e, 0x041e, 0x041e, 0x041e,
  0x041f, 0x041f, 0x041f, 0x041f, 0x041f, 0x041f, 0x041f, 0x041f, 0x041f, 0x041f, 0x041f, 0x041f, 0x041f, 0x041f, 0x041f, 0x041f,
  0x047f, 0x047f, 0x047f, 0x047f, 0x047f, 0x047f, 0x047f, 0x047f, 0x047f, 0x047f, 0x047f, 0x047f, 0x047f, 0x047f, 0x047f, 0x047f,
  0x04dc, 0x04dc, 0x04dc, 0x04dc, 0x04dc, 0x04dc, 0x04dc, 0x04dc, 0x04dc, 0x04dc, 0x04dc, 0x04dc, 0x04dc, 0x04dc, 0x04dc, 0x04dc,
  0x04f9, 0x04f9, 0x04f9, 0x04f9, 0x04f9, 0x04f9, 0x04f9, 0x04f9, 0x04f9, 0x04f9, 0x04f9, 0x04f9, 0x04f9, 0x04f9, 0x04f9, 0x04f9,
  0x060a, 0x060a, 0x060a, 0x060a, 0x060d, 0x060d, 0x060d, 0x060d, 0x0616, 0x0616, 0x0616, 0x0616, 0x80ff, 0x80ff, 0x80ff, 0x80ff]

def decodeRow5 : List Nat := [
  0x0221, 0x0221, 0x0221, 0x0221, 0x0221, 0x0221, 0x0221, 0x0221, 0x0221, 0x0221, 0x0221, 0x0221, 0x0221, 0x0221, 0x0221, 0x0221,
  0x0221, 0x0221, 0x0221, 0x0221, 0x0221, 0x0221, 0x0221, 0x0221, 0x0221, 0x0221, 0x0221, 0x0221, 0x0221, 0x0221, 0x0221, 0x0221,
  0x0221, 0x0221, 0x0221, 0x0221, 0x0221, 0x0221, 0x0221, 0x0221, 0x0221, 0x0221, 0x0221, 0x0221, 0x0221, 0x0221, 0x0221, 0x0221,
  0x0221, 0x0221, 0x0221, 0x0221, 0x0221, 0x0221, 0x0221, 0x0221, 0x0221, 0x0221, 0x0221, 0x0221, 0x0221, 0x0221, 0x0221, 0x0221,
  0x0222, 0x0222, 0x0222, 0x0222, 0x0222, 0x0222, 0x0222, 0x0222, 0x0222, 0x0222, 0x0222, 0x0222, 0x0222, 0x0222, 0x0222, 0x0222,
  0x0222, 0x0222, 0x0222, 0x0222, 0x0222, 0x0222, 0x0222, 0x0222, 0x0222, 0x0222, 0x0222, 0x0222, 0x0222, 0x0222, 0x0222, 0x0222,
  0x0222, 0x0222, 0x0222, 0x0222, 0x0222, 0x0222, 0x0222, 0x0222, 0x0222, 0x0222, 0x0222, 0x0222, 0x0222, 0x0222, 0x0222, 0x0222,
  0x0222, 0x0222, 0x0222, 0x0222, 0x0222, 0x0222, 0x0222, 0x0222, 0x0222, 0x0222, 0x0222, 0x0222, 0x0222, 0x0222, 0x0222, 0x0222,
  0x0228, 0x0228, 0x0228, 0x0228, 0x0228, 0x0228, 0x0228, 0x0228, 0x0228, 0x0228, 0x0228, 0x0228, 0x0228, 0x0228, 0x0228, 0x0228,
  0x0228, 0x0228, 0x0228, 0x0228, 0x0228, 0x0228, 0x0228, 0x0228, 0x0228, 0x0228, 0x0228, 0x0228, 0x0228, 0x0228, 0x0228, 0x0228,
  0x0228, 0x0228, 0x0228, 0x0228, 0x0228, 0x0228, 0x0228, 0x0228, 0x0228, 0x0228, 0x0228, 0x0228, 0x0228, 0x0228, 0x0228, 0x0228,
  0x0228, 0x0228, 0x0228, 0x0228, 0x0228, 0x0228, 0x0228, 0x0228, 0x0228, 0x0228, 0x0228, 0x0228, 0x0228, 0x0228, 0x0228, 0x0228,
  0x0229, 0x0229, 0x0229, 0x0229, 0x0229, 0x0229, 0x0229, 0x0229, 0x0229, 0x0229, 0x0229, 0x0229, 0x0229, 0x0229, 0x0229, 0x0229,
  0x0229, 0x0229, 0x0229, 0x0229, 0x0229, 0x0229, 0x0229, 0x0229, 0x0229, 0x0229, 0x0229, 0x0229, 0x0229, 0x0229, 0x0229, 0x0229,
  0x0229, 0x0229, 0x0229, 0x0229, 0x0229, 0x0229, 0x0229, 0x0229, 0x0229, 0x0229, 0x0229, 0x0229, 0x0229, 0x0229, 0x0229, 0x0229,
  0x0229, 0x0229, 0x0229, 0x0229, 0x0229, 0x0229, 0x0229, 0x0229, 0x0229, 0x0229, 0x0229, 0x0229, 0x0229, 0x0229, 0x0229, 0x0229]

def decodeRow6 : List Nat := [
  0x035c, 0x035c, 0x035c, 0x035c, 0x035c, 0x035c, 0x035c, 0x035c, 0x035c, 0x035c, 0x035c, 0x035c, 0x035c, 0x035c, 0x035c, 0x035c,
  0x035c, 0x035c, 0x035c, 0x035c, 0x035c, 0x035c, 0x035c, 0x035c, 0x035c, 0x035c, 0x035c, 0x035c, 0x035c, 0x035c, 0x035c, 0x035c,
  0x03c3, 0x03c3, 0x03c3, 0x03c3, 0x03c3, 0x03c3, 0x03c3, 0x03c3, 0x03c3, 0x03c3, 0x03c3, 0x03c3, 0x03c3, 0x03c3, 0x03c3, 0x03c3,
  0x03c3, 0x03c3, 0x03c3, 0x03c3, 0x03c3, 0x03c3, 0x03c3, 0x03c3, 0x03c3, 0x03c3, 0x03c3, 0x03c3, 0x03c3, 0x03c3, 0x03c3, 0x03c3,
  0x03d0, 0x03d0, 0x03d0, 0x03d0, 0x03d0, 0x03d0, 0x03d0, 0x03d0, 0x03d0, 0x03d0, 0x03d0, 0x03d0, 0x03d0, 0x03d0, 0x03d0, 0x03d0,
  0x03d0, 0x03d0, 0x03d0, 0x03d0, 0x03d0, 0x03d0, 0x03d0, 0x03d0, 0x03d0, 0x03d0, 0x03d0, 0x03d0, 0x03d0, 0x03d0, 0x03d0, 0x03d0,
  0x0480, 0x0480, 0x0480, 0x0480, 0x0480, 0x0480, 0x0480, 0x0480, 0x0480, 0x0480, 0x0480, 0x0480, 0x0480, 0x0480, 0x0480, 0x0480,
  0x0482, 0x0482, 0x0482, 0x0482, 0x0482, 0x0482, 0x0482, 0x0482, 0x0482, 0x0482, 0x0482, 0x0482, 0x0482, 0x0482, 0x0482, 0x0482,
  0x0483, 0x0483, 0x0483, 0x0483, 0x0483, 0x0483, 0x0483, 0x0483, 0x0483, 0x0483, 0x0483, 0x0483, 0x0483, 0x0483, 0x0483, 0x0483,
  0x04a2, 0x04a2, 0x04a2, 0x04a2, 0x04a2, 0x04a2, 0x04a2, 0x04a2, 0x04a2, 0x04a2, 0x04a2, 0x04a2, 0x04a2, 0x04a2, 0x04a2, 0x04a2,
  0x04b8, 0x04b8, 0x04b8, 0x04b8, 0x04b8, 0x04b8, 0x04b8, 0x04b8, 0x04b8, 0x04b8, 0x04b8, 0x04b8, 0x04b8, 0x04b8, 0x04b8, 0x04b8,
  0x04c2, 0x04c2, 0x04c2, 0x04c2, 0x04c2, 0x04c2, 0x04c2, 0x04c2, 0x04c2, 0x04c2, 0x04c2, 0x04c2, 0x04c2, 0x04c2, 0x04c2, 0x04c2,
  0x04e0, 0x04e0, 0x04e0, 0x04e0, 0x04e0, 0x04e0, 0x04e0, 0x04e0, 0x04e0, 0x04e0, 0x04e0, 0x04e0, 0x04e0, 0x04e0, 0x04e0, 0x04e0,
  0x04e2, 0x04e2, 0x04e2, 0x04e2, 0x04e2, 0x04e2, 0x04e2, 0x04e2, 0x04e2, 0x04e2, 0x04e2, 0x04e2, 0x04e2, 0x04e2, 0x04e2, 0x04e2,
  0x0599, 0x0599, 0x0599, 0x0599, 0x0599, 0x0599, 0x0599, 0x0599, 0x05a1, 0x05a1, 0x05a1, 0x05a1, 0x05a1, 0x05a1, 0x05a1, 0x05a1,
  0x05a7, 0x05a7, 0x05a7, 0x05a7, 0x05a7, 0x05a7, 0x05a7, 0x05a7, 0x05ac, 0x05ac, 0x05ac, 0x05ac, 0x05ac, 0x05ac, 0x05ac, 0x05ac]

def decodeRow7 : List Nat := [
  0x02c0, 0x02c0, 0x02c0, 0x02c0, 0x02c0, 0x02c0, 0x02c0, 0x02c0, 0x02c0, 0x02c0, 0x02c0, 0x02c0, 0x02c0, 0x02c0, 0x02c0, 0x02c0,
  0x02c0, 0x02c0, 0x02c0, 0x02c0, 0x02c0, 0x02c0, 0x02c0, 0x02c0, 0x02c0, 0x02c0, 0x02c0, 0x02c0, 0x02c0, 0x02c0, 0x02c0, 0x02c0,
  0x02c0, 0x02c0, 0x02c0, 0x02c0, 0x02c0, 0x02c0, 0x02c0, 0x02c0, 0x02c0, 0x02c0, 0x02c0, 0x02c0, 0x02c0, 0x02c0, 0x02c0, 0x02c0,
  0x02c0, 0x02c0, 0x02c0, 0x02c0, 0x02c0, 0x02c0, 0x02c0, 0x02c0, 0x02c0, 0x02c0, 0x02c0, 0x02c0, 0x02c0, 0x02c0, 0x02c0, 0x02c0,
  0x02c1, 0x02c1, 0x02c1, 0x02c1, 0x02c1, 0x02c1, 0x02c1, 0x02c1, 0x02c1, 0x02c1, 0x02c1, 0x02c1, 0x02c1, 0x02c1, 0x02c1, 0x02c1,
  0x02c1, 0x02c1, 0x02c1, 0x02c1, 0x02c1, 0x02c1, 0x02c1, 0x02c1, 0x02c1, 0x02c1, 0x02c1, 0x02c1, 0x02c1, 0x02c1, 0x02c1, 0x02c1,
  0x02c1, 0x02c1, 0x02c1, 0x02c1, 0x02c1, 0x02c1, 0x02c1, 0x02c1, 0x02c1, 0x02c1, 0x02c1, 0x02c1, 0x02c1, 0x02c1, 0x02c1, 0x02c1,
  0x02c1, 0x02c1, 0x02c1, 0x02c1, 0x02c1, 0x02c1, 0x02c1, 0x02c1, 0x02c1, 0x02c1, 0x02c1, 0x02c1, 0x02c1, 0x02c1, 0x02c1, 0x02c1,
  0x02c8, 0x02c8, 0x02c8, 0x02c8, 0x02c8, 0x02c8, 0x02c8, 0x02c8, 0x02c8, 0x02c8, 0x02c8, 0x02c8, 0x02c8, 0x02c8, 0x02c8, 0x02c8,
  0x02c8, 0x02c8, 0x02c8, 0x02c8, 0x02c8, 0x02c8, 0x02c8, 0x02c8, 0x02c8, 0x02c8, 0x02c8, 0x02c8, 0x02c8, 0x02c8, 0x02c8, 0x02c8,
  0x02c8, 0x02c8, 0x02c8, 0x02c8, 0x02c8, 0x02c8, 0x02c8, 0x02c8, 0x02c8, 0x02c8, 0x02c8, 0x02c8, 0x02c8, 0x02c8, 0x02c8, 0x02c8,
  0x02c8, 0x02c8, 0x02c8, 0x02c8, 0x02c8, 0x02c8, 0x02c8, 0x02c8, 0x02c8, 0x02c8, 0x02c8, 0x02c8, 0x02c8, 0x02c8, 0x02c8, 0x02c8,
  0x02c9, 0x02c9, 0x02c9, 0x02c9, 0x02c9, 0x02c9, 0x02c9, 0x02c9, 0x02c9, 0x02c9, 0x02c9, 0x02c9, 0x02c9, 0x02c9, 0x02c9, 0x02c9,
  0x02c9, 0x02c9, 0x02c9, 0x02c9, 0x02c9, 0x02c9, 0x02c9, 0x02c9, 0x02c9, 0x02c9, 0x02c9, 0x02c9, 0x02c9, 0x02c9, 0x02c9, 0x02c9,
  0x02c9, 0x02c9, 0x02c9, 0x02c9, 0x02c9, 0x02c9, 0x02c9, 0x02c9, 0x02c9, 0x02c9, 0x02c9, 0x02c9, 0x02c9, 0x02c9, 0x02c9, 0x02c9,
  0x02c9, 0x02c9, 0x02c9, 0x02c9, 0x02c9, 0x02c9, 0x02c9, 0x02c9, 0x02c9, 0x02c9, 0x02c9, 0x02c9, 0x02c9, 0x02c9, 0x02c9, 0x02c9]

def decodeRow8 : List Nat := [
  0x01c7, 0x01c7, 0x01c7, 0x01c7, 0x01c7, 0x01c7, 0x01c7, 0x01c7, 0x01c7, 0x01c7, 0x01c7, 0x01c7, 0x01c7, 0x01c7, 0x01c7, 0x01c7,
  0x01c7, 0x01c7, 0x01c7, 0x01c7, 0x01c7, 0x01c7, 0x01c7, 0x01c7, 0x01c7, 0x01c7, 0x01c7, 0x01c7, 0x01c7, 0x01c7, 0x01c7, 0x01c7,
  0x01c7, 0x01c7, 0x01c7, 0x01c7, 0x01c7, 0x01c7, 0x01c7, 0x01c7, 0x01c7, 0x01c7, 0x01c7, 0x01c7, 0x01c7, 0x01c7, 0x01c7, 0x01c7,
  0x01c7, 0x01c7, 0x01c7, 0x01c7, 0x01c7, 0x01c7, 0x01c7, 0x01c7, 0x01c7, 0x01c7, 0x01c7, 0x01c7, 0x01c7, 0x01c7, 0x01c7, 0x01c7,
  0x01c7, 0x01c7, 0x01c7, 0x01c7, 0x01c7, 0x01c7, 0x01c7, 0x01c7, 0x01c7, 0x01c7, 0x01c7, 0x01c7, 0x01c7, 0x01c7, 0x01c7, 0x01c7,
  0x01c7, 0x01c7, 0x01c7, 0x01c7, 0x01c7, 0x01c7, 0x01c7, 0x01c7, 0x01c7, 0x01c7, 0x01c7, 0x01c7, 0x01c7, 0x01c7, 0x01c7, 0x01c7,
  0x01c7, 0x01c7, 0x01c7, 0x01c7, 0x01c7, 0x01c7, 0x01c7, 0x01c7, 0x01c7, 0x01c7, 0x01c7, 0x01c7, 0x01c7, 0x01c7, 0x01c7, 0x01c7,
  0x01c7, 0x01c7, 0x01c7, 0x01c7, 0x01c7, 0x01c7, 0x01c7, 0x01c7, 0x01c7, 0x01c7, 0x01c7, 0x01c7, 0x01c7, 0x01c7, 0x01c7, 0x01c7,
  0x01cf, 0x01cf, 0x01cf, 0x01cf, 0x01cf, 0x01cf, 0x01cf, 0x01cf, 0x01cf, 0x01cf, 0x01cf, 0x01cf, 0x01cf, 0x01cf, 0x01cf, 0x01cf,
  0x01cf, 0x01cf, 0x01cf, 0x01cf, 0x01cf, 0x01cf, 0x01cf, 0x01cf, 0x01cf, 0x01cf, 0x01cf, 0x01cf, 0x01cf, 0x01cf, 0x01cf, 0x01cf,
  0x01cf, 0x01cf, 0x01cf, 0x01cf, 0x01cf, 0x01cf, 0x01cf, 0x01cf, 0x01cf, 0x01cf, 0x01cf, 0x01cf, 0x01cf, 0x01cf, 0x01cf, 0x01cf,
  0x01cf, 0x01cf, 0x01cf, 0x01cf, 0x01cf, 0x01cf, 0x01cf, 0x01cf, 0x01cf, 0x01cf, 0x01cf, 0x01cf, 0x01cf, 0x01cf, 0x01cf, 0x01cf,
  0x01cf, 0x01cf, 0x01cf, 0x01cf, 0x01cf, 0x01cf, 0x01cf, 0x01cf, 0x01cf, 0x01cf, 0x01cf, 0x01cf, 0x01cf, 0x01cf, 0x01cf, 0x01cf,
  0x01cf, 0x01cf, 0x01cf, 0x01cf, 0x01cf, 0x01cf, 0x01cf, 0x01cf, 0x01cf, 0x01cf, 0x01cf, 0x01cf, 0x01cf, 0x01cf, 0x01cf, 0x01cf,
  0x01cf, 0x01cf, 0x01cf, 0x01cf, 0x01cf, 0x01cf, 0x01cf, 0x01cf, 0x01cf, 0x01cf, 0x01cf, 0x01cf, 0x01cf, 0x01cf, 0x01cf, 0x01cf,
  0x01cf, 0x01cf, 0x01cf, 0x01cf, 0x01cf, 0x01cf, 0x01cf, 0x01cf, 0x01cf, 0x01cf, 0x01cf, 0x01cf, 0x01cf, 0x01cf, 0x01cf, 0x01cf]

def decodeRow9 : List Nat := [
  0x02ca, 0x02ca, 0x02ca, 0x02ca, 0x02ca, 0x02ca, 0x02ca, 0x02ca, 0x02ca, 0x02ca, 0x02ca, 0x02ca, 0x02ca, 0x02ca, 0x02ca, 0x02ca,
  0x02ca, 0x02ca, 0x02ca, 0x02ca, 0x02ca, 0x02ca, 0x02ca, 0x02ca, 0x02ca, 0x02ca, 0x02ca, 0x02ca, 0x02ca, 0x02ca, 0x02ca, 0x02ca,
  0x02ca, 0x02ca, 0x02ca, 0x02ca, 0x02ca, 0x02ca, 0x02ca, 0x02ca, 0x02ca, 0x02ca, 0x02ca, 0x02ca, 0x02ca, 0x02ca, 0x02ca, 0x02ca,
  0x02ca, 0x02ca, 0x02ca, 0x02ca, 0x02ca, 0x02ca, 0x02ca, 0x02ca, 0x02ca, 0x02ca, 0x02ca, 0x02ca, 0x02ca, 0x02ca, 0x02ca, 0x02ca,
  0x02cd, 0x02cd, 0x02cd, 0x02cd, 0x02cd, 0x02cd, 0x02cd, 0x02cd, 0x02cd, 0x02cd, 0x02cd, 0x02cd, 0x02cd, 0x02cd, 0x02cd, 0x02cd,
  0x02cd, 0x02cd, 0x02cd, 0x02cd, 0x02cd, 0x02cd, 0x02cd, 0x02cd, 0x02cd, 0x02cd, 0x02cd, 0x02cd, 0x02cd, 0x02cd, 0x02cd, 0x02cd,
  0x02cd, 0x02cd, 0x02cd, 0x02cd, 0x02cd, 0x02cd, 0x02cd, 0x02cd, 0x02cd, 0x02cd, 0x02cd, 0x02cd, 0x02cd, 0x02cd, 0x02cd, 0x02cd,
  0x02cd, 0x02cd, 0x02cd, 0x02cd, 0x02cd, 0x02cd, 0x02cd, 0x02cd, 0x02cd, 0x02cd, 0x02cd, 0x02cd, 0x02cd, 0x02cd, 0x02cd, 0x02cd,
  0x02d2, 0x02d2, 0x02d2, 0x02d2, 0x02d2, 0x02d2, 0x02d2, 0x02d2, 0x02d2, 0x02d2, 0x02d2, 0x02d2, 0x02d2, 0x02d2, 0x02d2, 0x02d2,
  0x02d2, 0x02d2, 0x02d2, 0x02d2, 0x02d2, 0x02d2, 0x02d2, 0x02d2, 0x02d2, 0x02d2, 0x02d2, 0x02d2, 0x02d2, 0x02d2, 0x02d2, 0x02d2,
  0x02d2, 0x02d2, 0x02d2, 0x02d2, 0x02d2, 0x02d2, 0x02d2, 0x02d2, 0x02d2, 0x02d2, 0x02d2, 0x02d2, 0x02d2, 0x02d2, 0x02d2, 0x02d2,
  0x02d2, 0x02d2, 0x02d2, 0x02d2, 0x02d2, 0x02d2, 0x02d2, 0x02d2, 0x02d2, 0x02d2, 0x02d2, 0x02d2, 0x02d2, 0x02d2, 0x02d2, 0x02d2,
  0x02d5, 0x02d5, 0x02d5, 0x02d5, 0x02d5, 0x02d5, 0x02d5, 0x02d5, 0x02d5, 0x02d5, 0x02d5, 0x02d5, 0x02d5, 0x02d5, 0x02d5, 0x02d5,
  0x02d5, 0x02d5, 0x02d5, 0x02d5, 0x02d5, 0x02d5, 0x02d5, 0x02d5, 0x02d5, 0x02d5, 0x02d5, 0x02d5, 0x02d5, 0x02d5, 0x02d5, 0x02d5,
  0x02d5, 0x02d5, 0x02d5, 0x02d5, 0x02d5, 0x02d5, 0x02d5, 0x02d5, 0x02d5, 0x02d5, 0x02d5, 0x02d5, 0x02d5, 0x02d5, 0x02d5, 0x02d5,
  0x02d5, 0x02d5, 0x02d5, 0x02d5, 0x02d5, 0x02d5, 0x02d5, 0x02d5, 0x02d5, 0x02d5, 0x02d5, 0x02d5, 0x02d5, 0x02d5, 0x02d5, 0x02d5]

def decodeRow10 : List Nat := [
  0x02f2, 0x02f2, 0x02f2, 0x02f2, 0x02f2, 0x02f2, 0x02f2, 0x02f2, 0x02f2, 0x02f2, 0x02f2, 0x02f2, 0x02f2, 0x02f2, 0x02f2, 0x02f2,
  0x02f2, 0x02f2, 0x02f2, 0x02f2, 0x02f2, 0x02f2, 0x02f2, 0x02f2, 0x02f2, 0x02f2, 0x02f2, 0x02f2, 0x02f2, 0x02f2, 0x02f2, 0x02f2,
  0x02f2, 0x02f2, 0x02f2, 0x02f2, 0x02f2, 0x02f2, 0x02f2, 0x02f2, 0x02f2, 0x02f2, 0x02f2, 0x02f2, 0x02f2, 0x02f2, 0x02f2, 0x02f2,
  0x02f2, 0x02f2, 0x02f2, 0x02f2, 0x02f2, 0x02f2, 0x02f2, 0x02f2, 0x02f2, 0x02f2, 0x02f2, 0x02f2, 0x02f2, 0x02f2, 0x02f2, 0x02f2,
  0x02f3, 0x02f3, 0x02f3, 0x02f3, 0x02f3, 0x02f3, 0x02f3, 0x02f3, 0x02f3, 0x02f3, 0x02f3, 0x02f3, 0x02f3, 0x02f3, 0x02f3, 0x02f3,
  0x02f3, 0x02f3, 0x02f3, 0x02f3, 0x02f3, 0x02f3, 0x02f3, 0x02f3, 0x02f3, 0x02f3, 0x02f3, 0x02f3, 0x02f3, 0x02f3, 0x02f3, 0x02f3,
  0x02f3, 0x02f3, 0x02f3, 0x02f3, 0x02f3, 0x02f3, 0x02f3, 0x02f3, 0x02f3, 0x02f3, 0x02f3, 0x02f3, 0x02f3, 0x02f3, 0x02f3, 0x02f3,
  0x02f3, 0x02f3, 0x02f3, 0x02f3, 0x02f3, 0x02f3, 0x02f3, 0x02f3, 0x02f3, 0x02f3, 0x02f3, 0x02f3, 0x02f3, 0x02f3, 0x02f3, 0x02f3,
  0x02ff, 0x02ff, 0x02ff, 0x02ff, 0x02ff, 0x02ff, 0x02ff, 0x02ff, 0x02ff, 0x02ff, 0x02ff, 0x02ff, 0x02ff, 0x02ff, 0x02ff, 0x02ff,
  0x02ff, 0x02ff, 0x02ff, 0x02ff, 0x02ff, 0x02ff, 0x02ff, 0x02ff, 0x02ff, 0x02ff, 0x02ff, 0x02ff, 0x02ff, 0x02ff, 0x02ff, 0x02ff,
  0x02ff, 0x02ff, 0x02ff, 0x02ff, 0x02ff, 0x02ff, 0x02ff, 0x02ff, 0x02ff, 0x02ff, 0x02ff, 0x02ff, 0x02ff, 0x02ff, 0x02ff, 0x02ff,
  0x02ff, 0x02ff, 0x02ff, 0x02ff, 0x02ff, 0x02ff, 0x02ff, 0x02ff, 0x02ff, 0x02ff, 0x02ff, 0x02ff, 0x02ff, 0x02ff, 0x02ff, 0x02ff,
  0x03cb, 0x03cb, 0x03cb, 0x03cb, 0x03cb, 0x03cb, 0x03cb, 0x03cb, 0x03cb, 0x03cb, 0x03cb, 0x03cb, 0x03cb, 0x03cb, 0x03cb, 0x03cb,
  0x03cb, 0x03cb, 0x03cb, 0x03cb, 0x03cb, 0x03cb, 0x03cb, 0x03cb, 0x03cb, 0x03cb, 0x03cb, 0x03cb, 0x03cb, 0x03cb, 0x03cb, 0x03cb,
  0x03cc, 0x03cc, 0x03cc, 0x03cc, 0x03cc, 0x03cc, 0x03cc, 0x03cc, 0x03cc, 0x03cc, 0x03cc, 0x03cc, 0x03cc, 0x03cc, 0x03cc, 0x03cc,
  0x03cc, 0x03cc, 0x03cc, 0x03cc, 0x03cc, 0x03cc, 0x03cc, 0x03cc, 0x03cc, 0x03cc, 0x03cc, 0x03cc, 0x03cc, 0x03cc, 0x03cc, 0x03cc]

def decodeRow11 : List Nat := [
  0x03d3, 0x03d3, 0x03d3, 0x03d3, 0x03d3, 0x03d3, 0x03d3, 0x03d3, 0x03d3, 0x03d3, 0x03d3, 0x03d3, 0x03d3, 0x03d3, 0x03d3, 0x03d3,
  0x03d3, 0x03d3, 0x03d3, 0x03d3, 0x03d3, 0x03d3, 0x03d3, 0x03d3, 0x03d3, 0x03d3, 0x03d3, 0x03d3, 0x03d3, 0x03d3, 0x03d3, 0x03d3,
  0x03d4, 0x03d4, 0x03d4, 0x03d4, 0x03d4, 0x03d4, 0x03d4, 0x03d4, 0x03d4, 0x03d4, 0x03d4, 0x03d4, 0x03d4, 0x03d4, 0x03d4, 0x03d4,
  0x03d4, 0x03d4, 0x03d4, 0x03d4, 0x03d4, 0x03d4, 0x03d4, 0x03d4, 0x03d4, 0x03d4, 0x03d4, 0x03d4, 0x03d4, 0x03d4, 0x03d4, 0x03d4,
  0x03d6, 0x03d6, 0x03d6, 0x03d6, 0x03d6, 0x03d6, 0x03d6, 0x03d6, 0x03d6, 0x03d6, 0x03d6, 0x03d6, 0x03d6, 0x03d6, 0x03d6, 0x03d6,
  0x03d6, 0x03d6, 0x03d6, 0x03d6, 0x03d6, 0x03d6, 0x03d6, 0x03d6, 0x03d6, 0x03d6, 0x03d6, 0x03d6, 0x03d6, 0x03d6, 0x03d6, 0x03d6,
  0x03dd, 0x03dd, 0x03dd, 0x03dd, 0x03dd, 0x03dd, 0x03dd, 0x03dd, 0x03dd, 0x03dd, 0x03dd, 0x03dd, 0x03dd, 0x03dd, 0x03dd, 0x03dd,
  0x03dd, 0x03dd, 0x03dd, 0x03dd, 0x03dd, 0x03dd, 0x03dd, 0x03dd, 0x03dd, 0x03dd, 0x03dd, 0x03dd, 0x03dd, 0x03dd, 0x03dd, 0x03dd,
  0x03de, 0x03de, 0x03de, 0x03de, 0x03de, 0x03de, 0x03de, 0x03de, 0x03de, 0x03de, 0x03de, 0x03de, 0x03de, 0x03de, 0x03de, 0x03de,
  0x03de, 0x03de, 0x03de, 0x03de, 0x03de, 0x03de, 0x03de, 0x03de, 0x03de, 0x03de, 0x03de, 0x03de, 0x03de, 0x03de, 0x03de, 0x03de,
  0x03df, 0x03df, 0x03df, 0x03df, 0x03df, 0x03df, 0x03df, 0x03df, 0x03df, 0x03df, 0x03df, 0x03df, 0x03df, 0x03df, 0x03df, 0x03df,
  0x03df, 0x03df, 0x03df, 0x03df, 0x03df, 0x03df, 0x03df, 0x03df, 0x03df, 0x03df, 0x03df, 0x03df, 0x03df, 0x03df, 0x03df, 0x03df,
  0x03f1, 0x03f1, 0x03f1, 0x03f1, 0x03f1, 0x03f1, 0x03f1, 0x03f1, 0x03f1, 0x03f1, 0x03f1, 0x03f1, 0x03f1, 0x03f1, 0x03f1, 0x03f1,
  0x03f1, 0x03f1, 0x03f1, 0x03f1, 0x03f1, 0x03f1, 0x03f1, 0x03f1, 0x03f1, 0x03f1, 0x03f1, 0x03f1, 0x03f1, 0x03f1, 0x03f1, 0x03f1,
  0x03f4, 0x03f4, 0x03f4, 0x03f4, 0x03f4, 0x03f4, 0x03f4, 0x03f4, 0x03f4, 0x03f4, 0x03f4, 0x03f4, 0x03f4, 0x03f4, 0x03f4, 0x03f4,
  0x03f4, 0x03f4, 0x03f4, 0x03f4, 0x03f4, 0x03f4, 0x03f4, 0x03f4, 0x03f4, 0x03f4, 0x03f4, 0x03f4, 0x03f4, 0x03f4, 0x03f4, 0x03f4]

def decodeRow12 : List Nat := [
  0x02da, 0x02da, 0x02da, 0x02da, 0x02da, 0x02da, 0x02da, 0x02da, 0x02da, 0x02da, 0x02da, 0x02da, 0x02da, 0x02da, 0x02da, 0x02da,
  0x02da, 0x02da, 0x02da, 0x02da, 0x02da, 0x02da, 0x02da, 0x02da, 0x02da, 0x02da, 0x02da, 0x02da, 0x02da, 0x02da, 0x02da, 0x02da,
  0x02da, 0x02da, 0x02da, 0x02da, 0x02da, 0x02da, 0x02da, 0x02da, 0x02da, 0x02da, 0x02da, 0x02da, 0x02da, 0x02da, 0x02da, 0x02da,
  0x02da, 0x02da, 0x02da, 0x02da, 0x02da, 0x02da, 0x02da, 0x02da, 0x02da, 0x02da, 0x02da, 0x02da, 0x02da, 0x02da, 0x02da, 0x02da,
  0x02db, 0x02db, 0x02db, 0x02db, 0x02db, 0x02db, 0x02db, 0x02db, 0x02db, 0x02db, 0x02db, 0x02db, 0x02db, 0x02db, 0x02db, 0x02db,
  0x02db, 0x02db, 0x02db, 0x02db, 0x02db, 0x02db, 0x02db, 0x02db, 0x02db, 0x02db, 0x02db, 0x02db, 0x02db, 0x02db, 0x02db, 0x02db,
  0x02db, 0x02db, 0x02db, 0x02db, 0x02db, 0x02db, 0x02db, 0x02db, 0x02db, 0x02db, 0x02db, 0x02db, 0x02db, 0x02db, 0x02db, 0x02db,
  0x02db, 0x02db, 0x02db, 0x02db, 0x02db, 0x02db, 0x02db, 0x02db, 0x02db, 0x02db, 0x02db, 0x02db, 0x02db, 0x02db, 0x02db, 0x02db,
  0x02ee, 0x02ee, 0x02ee, 0x02ee, 0x02ee, 0x02ee, 0x02ee, 0x02ee, 0x02ee, 0x02ee, 0x02ee, 0x02ee, 0x02ee, 0x02ee, 0x02ee, 0x02ee,
  0x02ee, 0x02ee, 0x02ee, 0x02ee, 0x02ee, 0x02ee, 0x02ee, 0x02ee, 0x02ee, 0x02ee, 0x02ee, 0x02ee, 0x02ee, 0x02ee, 0x02ee, 0x02ee,
  0x02ee, 0x02ee, 0x02ee, 0x02ee, 0x02ee, 0x02ee, 0x02ee, 0x02ee, 0x02ee, 0x02ee, 0x02ee, 0x02ee, 0x02ee, 0x02ee, 0x02ee, 0x02ee,
  0x02ee, 0x02ee, 0x02ee, 0x02ee, 0x02ee, 0x02ee, 0x02ee, 0x02ee, 0x02ee, 0x02ee, 0x02ee, 0x02ee, 0x02ee, 0x02ee, 0x02ee, 0x02ee,
  0x02f0, 0x02f0, 0x02f0, 0x02f0, 0x02f0, 0x02f0, 0x02f0, 0x02f0, 0x02f0, 0x02f0, 0x02f0, 0x02f0, 0x02f0, 0x02f0, 0x02f0, 0x02f0,
  0x02f0, 0x02f0, 0x02f0, 0x02f0, 0x02f0, 0x02f0, 0x02f0, 0x02f0, 0x02f0, 0x02f0, 0x02f0, 0x02f0, 0x02f0, 0x02f0, 0x02f0, 0x02f0,
  0x02f0, 0x02f0, 0x02f0, 0x02f0, 0x02f0, 0x02f0, 0x02f0, 0x02f0, 0x02f0, 0x02f0, 0x02f0, 0x02f0, 0x02f0, 0x02f0, 0x02f0, 0x02f0,
  0x02f0, 0x02f0, 0x02f0, 0x02f0, 0x02f0, 0x02f0, 0x02f0, 0x02f0, 0x02f0, 0x02f0, 0x02f0, 0x02f0, 0x02f0, 0x02f0, 0x02f0, 0x02f0]

def decodeRow13 : List Nat := [
  0x01ea, 0x01ea, 0x01ea, 0x01ea, 0x01ea, 0x01ea, 0x01ea, 0x01ea, 0x01ea, 0x01ea, 0x01ea, 0x01ea, 0x01ea, 0x01ea, 0x01ea, 0x01ea,
  0x01ea, 0x01ea, 0x01ea, 0x01ea, 0x01ea, 0x01ea, 0x01ea, 0x01ea, 0x01ea, 0x01ea, 0x01ea, 0x01ea, 0x01ea, 0x01ea, 0x01ea, 0x01ea,
  0x01ea, 0x01ea, 0x01ea, 0x01ea, 0x01ea, 0x01ea, 0x01ea, 0x01ea, 0x01ea, 0x01ea, 0x01ea, 0x01ea, 0x01ea, 0x01ea, 0x01ea, 0x01ea,
  0x01ea, 0x01ea, 0x01ea, 0x01ea, 0x01ea, 0x01ea, 0x01ea, 0x01ea, 0x01ea, 0x01ea, 0x01ea, 0x01ea, 0x01ea, 0x01ea, 0x01ea, 0x01ea,
  0x01ea, 0x01ea, 0x01ea, 0x01ea, 0x01ea, 0x01ea, 0x01ea, 0x01ea, 0x01ea, 0x01ea, 0x01ea, 0x01ea, 0x01ea, 0x01ea, 0x01ea, 0x01ea,
  0x01ea, 0x01ea, 0x01ea, 0x01ea, 0x01ea, 0x01ea, 0x01ea, 0x01ea, 0x01ea, 0x01ea, 0x01ea, 0x01ea, 0x01ea, 0x01ea, 0x01ea, 0x01ea,
  0x01ea, 0x01ea, 0x01ea, 0x01ea, 0x01ea, 0x01ea, 0x01ea, 0x01ea, 0x01ea, 0x01ea, 0x01ea, 0x01ea, 0x01ea, 0x01ea, 0x01ea, 0x01ea,
  0x01ea, 0x01ea, 0x01ea, 0x01ea, 0x01ea, 0x01ea, 0x01ea, 0x01ea, 0x01ea, 0x01ea, 0x01ea, 0x01ea, 0x01ea, 0x01ea, 0x01ea, 0x01ea,
  0x01eb, 0x01eb, 0x01eb, 0x01eb, 0x01eb, 0x01eb, 0x01eb, 0x01eb, 0x01eb, 0x01eb, 0x01eb, 0x01eb, 0x01eb, 0x01eb, 0x01eb, 0x01eb,
  0x01eb, 0x01eb, 0x01eb, 0x01eb, 0x01eb, 0x01eb, 0x01eb, 0x01eb, 0x01eb, 0x01eb, 0x01eb, 0x01eb, 0x01eb, 0x01eb, 0x01eb, 0x01eb,
  0x01eb, 0x01eb, 0x01eb, 0x01eb, 0x01eb, 0x01eb, 0x01eb, 0x01eb, 0x01eb, 0x01eb, 0x01eb, 0x01eb, 0x01eb, 0x01eb, 0x01eb, 0x01eb,
  0x01eb, 0x01eb, 0x01eb, 0x01eb, 0x01eb, 0x01eb, 0x01eb, 0x01eb, 0x01eb, 0x01eb, 0x01eb, 0x01eb, 0x01eb, 0x01eb, 0x01eb, 0x01eb,
  0x01eb, 0x01eb, 0x01eb, 0x01eb, 0x01eb, 0x01eb, 0x01eb, 0x01eb, 0x01eb, 0x01eb, 0x01eb, 0x01eb, 0x01eb, 0x01eb, 0x01eb, 0x01eb,
  0x01eb, 0x01eb, 0x01eb, 0x01eb, 0x01eb, 0x01eb, 0x01eb, 0x01eb, 0x01eb, 0x01eb, 0x01eb, 0x01eb, 0x01eb, 0x01eb, 0x01eb, 0x01eb,
  0x01eb, 0x01eb, 0x01eb, 0x01eb, 0x01eb, 0x01eb, 0x01eb, 0x01eb, 0x01eb, 0x01eb, 0x01eb, 0x01eb, 0x01eb, 0x01eb, 0x01eb, 0x01eb,
  0x01eb, 0x01eb, 0x01eb, 0x01eb, 0x01eb, 0x01eb, 0x01eb, 0x01eb, 0x01eb, 0x01eb, 0x01eb, 0x01eb, 0x01eb, 0x01eb, 0x01eb, 0x01eb]

def decodeRow14 : List Nat := [
  0x03f5, 0x03f5, 0x03f5, 0x03f5, 0x03f5, 0x03f5, 0x03f5, 0x03f5, 0x03f5, 0x03f5, 0x03f5, 0x03f5, 0x03f5, 0x03f5, 0x03f5, 0x03f5,
  0x03f5, 0x03f5, 0x03f5, 0x03f5, 0x03f5, 0x03f5, 0x03f5, 0x03f5, 0x03f5, 0x03f5, 0x03f5, 0x03f5, 0x03f5, 0x03f5, 0x03f5, 0x03f5,
  0x03f6, 0x03f6, 0x03f6, 0x03f6, 0x03f6, 0x03f6, 0x03f6, 0x03f6, 0x03f6, 0x03f6, 0x03f6, 0x03f6, 0x03f6, 0x03f6, 0x03f6, 0x03f6,
  0x03f6, 0x03f6, 0x03f6, 0x03f6, 0x03f6, 0x03f6, 0x03f6, 0x03f6, 0x03f6, 0x03f6, 0x03f6, 0x03f6, 0x03f6, 0x03f6, 0x03f6, 0x03f6,
  0x03f7, 0x03f7, 0x03f7, 0x03f7, 0x03f7, 0x03f7, 0x03f7, 0x03f7, 0x03f7, 0x03f7, 0x03f7, 0x03f7, 0x03f7, 0x03f7, 0x03f7, 0x03f7,
  0x03f7, 0x03f7, 0x03f7, 0x03f7, 0x03f7, 0x03f7, 0x03f7, 0x03f7, 0x03f7, 0x03f7, 0x03f7, 0x03f7, 0x03f7, 0x03f7, 0x03f7, 0x03f7,
  0x03f8, 0x03f8, 0x03f8, 0x03f8, 0x03f8, 0x03f8, 0x03f8, 0x03f8, 0x03f8, 0x03f8, 0x03f8, 0x03f8, 0x03f8, 0x03f8, 0x03f8, 0x03f8,
  0x03f8, 0x03f8, 0x03f8, 0x03f8, 0x03f8, 0x03f8, 0x03f8, 0x03f8, 0x03f8, 0x03f8, 0x03f8, 0x03f8, 0x03f8, 0x03f8, 0x03f8, 0x03f8,
  0x03fa, 0x03fa, 0x03fa, 0x03fa, 0x03fa, 0x03fa, 0x03fa, 0x03fa, 0x03fa, 0x03fa, 0x03fa, 0x03fa, 0x03fa, 0x03fa, 0x03fa, 0x03fa,
  0x03fa, 0x03fa, 0x03fa, 0x03fa, 0x03fa, 0x03fa, 0x03fa, 0x03fa, 0x03fa, 0x03fa, 0x03fa, 0x03fa, 0x03fa, 0x03fa, 0x03fa, 0x03fa,
  0x03fb, 0x03fb, 0x03fb, 0x03fb, 0x03fb, 0x03fb, 0x03fb, 0x03fb, 0x03fb, 0x03fb, 0x03fb, 0x03fb, 0x03fb, 0x03fb, 0x03fb, 0x03fb,
  0x03fb, 0x03fb, 0x03fb, 0x03fb, 0x03fb, 0x03fb, 0x03fb, 0x03fb, 0x03fb, 0x03fb, 0x03fb, 0x03fb, 0x03fb, 0x03fb, 0x03fb, 0x03fb,
  0x03fc, 0x03fc, 0x03fc, 0x03fc, 0x03fc, 0x03fc, 0x03fc, 0x03fc, 0x03fc, 0x03fc, 0x03fc, 0x03fc, 0x03fc, 0x03fc, 0x03fc, 0x03fc,
  0x03fc, 0x03fc, 0x03fc, 0x03fc, 0x03fc, 0x03fc, 0x03fc, 0x03fc, 0x03fc, 0x03fc, 0x03fc, 0x03fc, 0x03fc, 0x03fc, 0x03fc, 0x03fc,
  0x03fd, 0x03fd, 0x03fd, 0x03fd, 0x03fd, 0x03fd, 0x03fd, 0x03fd, 0x03fd, 0x03fd, 0x03fd, 0x03fd, 0x03fd, 0x03fd, 0x03fd, 0x03fd,
  0x03fd, 0x03fd, 0x03fd, 0x03fd, 0x03fd, 0x03fd, 0x03fd, 0x03fd, 0x03fd, 0x03fd, 0x03fd, 0x03fd, 0x03fd, 0x03fd, 0x03fd, 0x03fd]

/-- `DECODE_TABLE` -/
def decodeTable : List Nat :=
  [decodeRow0, decodeRow1, decodeRow2, decodeRow3, decodeRow4, decodeRow5, decodeRow6, decodeRow7,
    decodeRow8, decodeRow9, decodeRow10, decodeRow11, decodeRow12, decodeRow13, decodeRow14].flatten

end Hysteria

end Elise
