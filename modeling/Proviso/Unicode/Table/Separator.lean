/- # Proviso.Unicode.Table.Separator -- the code points of separators and controls

The three categories of separators, and those of characters that are none: controls, format
characters, surrogates and the code points for private use.  The tables are those of version 17.0
of the character database. -/
import Proviso.Unicode.RangeTable

namespace Proviso.Unicode.Table

set_option autoImplicit false

def spaceSeparator : RangeTable := [
  (0x20, 0x20), (0xa0, 0xa0), (0x1680, 0x1680), (0x2000, 0x200a), (0x202f, 0x202f),
  (0x205f, 0x205f), (0x3000, 0x3000)]

def lineSeparator : RangeTable := [
  (0x2028, 0x2028)]

def paragraphSeparator : RangeTable := [
  (0x2029, 0x2029)]

def control : RangeTable := [
  (0x0, 0x1f), (0x7f, 0x9f)]

def format : RangeTable := [
  (0xad, 0xad), (0x600, 0x605), (0x61c, 0x61c), (0x6dd, 0x6dd), (0x70f, 0x70f), (0x890, 0x891),
  (0x8e2, 0x8e2), (0x180e, 0x180e), (0x200b, 0x200f), (0x202a, 0x202e), (0x2060, 0x2064),
  (0x2066, 0x206f), (0xfeff, 0xfeff), (0xfff9, 0xfffb), (0x110bd, 0x110bd), (0x110cd, 0x110cd),
  (0x13430, 0x1343f), (0x1bca0, 0x1bca3), (0x1d173, 0x1d17a), (0xe0001, 0xe0001),
  (0xe0020, 0xe007f)]

def surrogate : RangeTable := [
  (0xd800, 0xdfff)]

def privateUse : RangeTable := [
  (0xe000, 0xf8ff), (0xf0000, 0xffffd), (0x100000, 0x10fffd)]

end Proviso.Unicode.Table
