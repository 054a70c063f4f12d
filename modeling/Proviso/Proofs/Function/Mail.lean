/- # Proviso.Proofs.Function.Mail -- the shape of a mail address

A mail address is a mailbox, an at sign, a host, a dot and a domain.  A host may hold dots itself,
so there are many places where it might end, but only one of them leaves a domain: neither a dot nor
an at sign is in a domain, and no at sign is in a host or a mailbox.  So to look for the parts of an
address is to cut a text at its only at sign, and what stands behind that at its last dot
(`Function.email_shape`). -/
import Proviso.Function.Contact
import Proviso.Proofs.Function.Reply
import Proviso.Proofs.Pattern.Description

namespace Proviso

set_option autoImplicit false

/-! ## Characters -/

def IsHostChar (c : Char) : Prop := c.isAlphanum = true ∨ c = '_' ∨ c = '-' ∨ c = '.'

/-- What a mailbox is written with: the same, and ideographs. -/
def IsMailboxChar (c : Char) : Prop := IsHostChar c ∨ 0x4e00 ≤ c.toNat ∧ c.toNat ≤ 0x9fa5

section Characters

variable {c : Char}

theorem isUpper_iff : c.isUpper = true ↔ 65 ≤ c.toNat ∧ c.toNat ≤ 90 := by
  unfold Char.isUpper
  rw [decide_eq_true_iff, ge_iff_le, UInt32.le_iff_toNat_le, UInt32.le_iff_toNat_le]
  exact Iff.rfl

theorem isLower_iff : c.isLower = true ↔ 97 ≤ c.toNat ∧ c.toNat ≤ 122 := by
  unfold Char.isLower
  rw [Bool.and_eq_true, decide_eq_true_iff, decide_eq_true_iff, ge_iff_le,
    UInt32.le_iff_toNat_le, UInt32.le_iff_toNat_le]
  exact Iff.rfl

theorem isAlpha_iff : c.isAlpha = true ↔
    (65 ≤ c.toNat ∧ c.toNat ≤ 90) ∨ (97 ≤ c.toNat ∧ c.toNat ≤ 122) := by
  show (c.isUpper || c.isLower) = true ↔ _
  rw [Bool.or_eq_true, isUpper_iff, isLower_iff]

theorem isHostChar_iff : IsHostChar c ↔
    ((65 ≤ c.toNat ∧ c.toNat ≤ 90) ∨ (97 ≤ c.toNat ∧ c.toNat ≤ 122)) ∨
      (48 ≤ c.toNat ∧ c.toNat ≤ 57) ∨ c.toNat = 95 ∨ c.toNat = 45 ∨ c.toNat = 46 := by
  have by_code (d : Char) : c = d ↔ c.toNat = d.toNat := Char.toNat_inj.symm
  rw [IsHostChar, Char.isAlphanum, Bool.or_eq_true, isAlpha_iff, Char.isDigit_iff_toNat, by_code,
    by_code, by_code, or_assoc]
  exact Iff.rfl

theorem contains_ranges {first last : Nat} {rest : Unicode.RangeTable} :
    (CharSet.mk ((first, last) :: rest)).contains c = true ↔
      first ≤ c.toNat ∧ (c.toNat ≤ last ∨ (CharSet.mk rest).contains c = true) := by
  simp only [CharSet.contains, Unicode.RangeTable.contains]
  split
  · rename_i before
    simp only [Bool.false_eq_true, false_iff]
    omega
  · rename_i behind
    rw [Bool.or_eq_true, decide_eq_true_iff]
    exact (and_iff_right (Nat.le_of_not_lt behind)).symm

theorem contains_no_ranges : (CharSet.mk []).contains c = true ↔ False := ⟨nofun, nofun⟩

theorem asciiLetter_iff : CharSet.asciiLetter.contains c = true ↔ c.isAlpha = true := by
  have table : CharSet.asciiLetter = ⟨[(65, 90), (97, 122)]⟩ := by decide
  rw [table, contains_ranges, contains_ranges, isAlpha_iff]
  simp only [contains_no_ranges, or_false]
  omega

theorem mailChar_iff : mailChar.contains c = true ↔ IsHostChar c := by
  have table : mailChar = ⟨[(45, 46), (48, 57), (65, 90), (95, 95), (97, 122)]⟩ := by decide
  rw [table, isHostChar_iff]
  simp only [contains_ranges, contains_no_ranges, or_false]
  omega

theorem mailboxChar_iff : mailboxChar.contains c = true ↔ IsMailboxChar c := by
  have table : mailboxChar =
      ⟨[(45, 46), (48, 57), (65, 90), (95, 95), (97, 122), (0x4e00, 0x9fa5)]⟩ := by decide
  rw [table, IsMailboxChar, isHostChar_iff]
  simp only [contains_ranges, contains_no_ranges, or_false]
  omega

theorem not_isMailboxChar_at : ¬IsMailboxChar '@' := by
  rintro (host | ⟨ideograph, -⟩)
  · exact absurd (isHostChar_iff.mp host) (by decide)
  · exact absurd ideograph (by decide)

end Characters

/-! ## Parts -/

structure MailParts (mailbox host domain : List Char) : Prop where
  mailbox_some : mailbox ≠ []
  mailbox_chars : ∀ c ∈ mailbox, IsMailboxChar c
  host_some : host ≠ []
  host_chars : ∀ c ∈ host, IsHostChar c
  domain_least : 2 ≤ domain.length
  domain_most : domain.length ≤ 8
  domain_chars : ∀ c ∈ domain, c.isAlpha = true

namespace MailParts

variable {mailbox host domain : List Char}

theorem mailbox_unmarked (parts : MailParts mailbox host domain) : '@' ∉ mailbox := fun listed =>
  not_isMailboxChar_at (parts.mailbox_chars _ listed)

theorem host_unmarked (parts : MailParts mailbox host domain) : '@' ∉ host := fun listed =>
  not_isMailboxChar_at (.inl (parts.host_chars _ listed))

theorem domain_unmarked (parts : MailParts mailbox host domain) : '@' ∉ domain := fun listed =>
  absurd (parts.domain_chars _ listed) (by decide)

theorem domain_undotted (parts : MailParts mailbox host domain) : '.' ∉ domain := fun listed =>
  absurd (parts.domain_chars _ listed) (by decide)

end MailParts

theorem describes_oneOrMore (set : CharSet) (before inside after : List Char) :
    (Pattern.oneOrMore (.one set)).Describes before inside after ↔
      inside ≠ [] ∧ ∀ c ∈ inside, set.contains c = true := by
  unfold Pattern.oneOrMore
  rw [Pattern.describes_repeated_one]
  refine and_congr_left fun _ => ?_
  rw [← List.length_pos_iff]
  exact ⟨And.left, fun some_char => ⟨some_char, nofun⟩⟩

theorem describes_between (set : CharSet) {least most : Nat} (order : least ≤ most)
    (before inside after : List Char) :
    (Pattern.between (.one set) least most).Describes before inside after ↔
      (least ≤ inside.length ∧ inside.length ≤ most) ∧ ∀ c ∈ inside, set.contains c = true := by
  unfold Pattern.between
  rw [Pattern.describes_repeated_one]
  refine and_congr_left fun _ => and_congr_right fun _ => ?_
  simp only [Option.mem_some_iff, forall_eq', Nat.max_eq_right order]

/-- A text is a mail address if it is parts of one with the right signs between. -/
theorem mailAddress_accepts_iff (text : List Char) : mailAddress.accepts text = true ↔
    ∃ mailbox host domain, text = mailbox ++ '@' :: (host ++ '.' :: domain) ∧
      MailParts mailbox host domain := by
  have whole := Pattern.accepts_whole_iff [.oneOrMore (.one mailboxChar), .char '@',
    .oneOrMore (.one mailChar), .char '.', .between (.one .asciiLetter) 2 8] text
  refine whole.trans ?_
  constructor
  · rintro ⟨mailbox, _, rfl, is_mailbox, _, _, rfl, rfl, host, _, rfl, is_host, _, domain, rfl, rfl,
      is_domain⟩
    obtain ⟨mailbox_some, mailbox_chars⟩ := (describes_oneOrMore _ _ _ _).mp is_mailbox
    obtain ⟨host_some, host_chars⟩ := (describes_oneOrMore _ _ _ _).mp is_host
    obtain ⟨⟨enough, few⟩, letters⟩ := (describes_between _ (by decide) _ _ _).mp is_domain
    exact ⟨mailbox, host, domain, rfl, mailbox_some,
      fun c listed => mailboxChar_iff.mp (mailbox_chars c listed), host_some,
      fun c listed => mailChar_iff.mp (host_chars c listed), enough, few,
      fun c listed => asciiLetter_iff.mp (letters c listed)⟩
  · rintro ⟨mailbox, host, domain, rfl, parts⟩
    refine ⟨mailbox, _, rfl, (describes_oneOrMore _ _ _ _).mpr ⟨parts.mailbox_some, ?_⟩,
      ['@'], _, rfl, rfl, host, _, rfl, (describes_oneOrMore _ _ _ _).mpr ⟨parts.host_some, ?_⟩,
      ['.'], domain, rfl, rfl, (describes_between _ (by decide) _ _ _).mpr
        ⟨⟨parts.domain_least, parts.domain_most⟩, ?_⟩⟩
    · exact fun c listed => mailboxChar_iff.mpr (parts.mailbox_chars c listed)
    · exact fun c listed => mailChar_iff.mpr (parts.host_chars c listed)
    · exact fun c listed => asciiLetter_iff.mpr (parts.domain_chars c listed)

/-! ## Cuts -/

/-- What stands before the last place of a character in a text, and what stands behind it. -/
def cutAtLast? (mark : Char) : List Char → Option (List Char × List Char)
  | [] => none
  | c :: rest =>
    match cutAtLast? mark rest with
    | some (before, behind) => some (c :: before, behind)
    | none => if c = mark then some ([], rest) else none

section Cuts

variable {mark : Char} {text before behind : List Char}

theorem cutAtLast?_eq_none : cutAtLast? mark text = none ↔ mark ∉ text := by
  induction text with
  | nil => exact ⟨fun _ => nofun, fun _ => rfl⟩
  | cons c rest ih =>
    rw [cutAtLast?, List.mem_cons, not_or, ← ih]
    split
    · rename_i cut
      rw [cut]
      exact ⟨nofun, fun ⟨_, uncut⟩ => nomatch uncut⟩
    · rename_i uncut
      split
      · rename_i same
        exact ⟨nofun, fun ⟨other, _⟩ => absurd same.symm other⟩
      · rename_i other
        exact ⟨fun _ => ⟨Ne.symm other, uncut⟩, fun _ => rfl⟩

theorem cutAtLast?_append (unmarked : mark ∉ behind) :
    cutAtLast? mark (before ++ mark :: behind) = some (before, behind) := by
  induction before with
  | nil => rw [List.nil_append, cutAtLast?, cutAtLast?_eq_none.mpr unmarked, if_pos rfl]
  | cons c before ih => rw [List.cons_append, cutAtLast?, ih]

theorem eq_of_cutAtLast? (cut : cutAtLast? mark text = some (before, behind)) :
    text = before ++ mark :: behind := by
  induction text generalizing before with
  | nil => cases cut
  | cons c rest ih =>
    rw [cutAtLast?] at cut
    split at cut
    · rename_i before' behind' later
      cases cut
      rw [ih later, List.cons_append]
    · split at cut
      · rename_i same
        cases cut
        rw [same, List.nil_append]
      · cases cut

end Cuts

/-! ## Mail addresses -/

namespace Function

variable [PatternLibrary]

theorem email_passes_iff (value : Datum) : email.reply [value] = .judged .pass ↔
    ∃ text, value = .str text ∧ mailAddress.accepts text.toList = true := by
  have replied : email.reply [value] = .judged (isMailAddress [value]) := rfl
  rw [replied, Reply.judged.injEq]
  constructor
  · intro passes
    cases value with
    | str text =>
      refine ⟨text, rfl, ?_⟩
      rw [isMailAddress] at passes
      split at passes
      · assumption
      · cases passes
    | _ => cases passes
  · rintro ⟨text, rfl, accepted⟩
    exact if_pos accepted

/-- **Exactly the texts of one shape are mail addresses.**  Where their parts are is told by the
only at sign and the last dot behind it. -/
theorem email_shape (value : Datum) :
    (email.reply [value] = .judged .pass ↔ ∃ mailbox host domain : String,
      value = .str (mailbox ++ "@" ++ host ++ "." ++ domain) ∧
        MailParts mailbox.toList host.toList domain.toList) ∧
    (email.reply [value] = .judged .pass ↔ ∃ text, value = .str text ∧
      text.toList.count '@' = 1 ∧ ∃ mailbox address host domain,
        cutAtLast? '@' text.toList = some (mailbox, address) ∧
          cutAtLast? '.' address = some (host, domain) ∧ MailParts mailbox host domain) := by
  rw [email_passes_iff]
  constructor
  · constructor
    · rintro ⟨text, rfl, accepted⟩
      obtain ⟨mailbox, host, domain, written, parts⟩ := (mailAddress_accepts_iff _).mp accepted
      refine ⟨.ofList mailbox, .ofList host, .ofList domain, congrArg Datum.str ?_, ?_⟩
      · rw [← String.toList_inj, written]
        simp
      · simpa only [String.toList_ofList] using parts
    · rintro ⟨mailbox, host, domain, rfl, parts⟩
      refine ⟨_, rfl, (mailAddress_accepts_iff _).mpr ⟨_, _, _, ?_, parts⟩⟩
      simp
  · refine exists_congr fun text => and_congr_right fun _ => ?_
    rw [mailAddress_accepts_iff]
    constructor
    · rintro ⟨mailbox, host, domain, written, parts⟩
      have unmarked : '@' ∉ host ++ '.' :: domain := by
        simp [parts.host_unmarked, parts.domain_unmarked]
      rw [written]
      refine ⟨?_, mailbox, _, host, domain, cutAtLast?_append unmarked,
        cutAtLast?_append parts.domain_undotted, parts⟩
      rw [List.count_append, List.count_cons_self, List.count_eq_zero.mpr parts.mailbox_unmarked,
        List.count_eq_zero.mpr unmarked]
    · rintro ⟨-, mailbox, address, host, domain, cut, cut_again, parts⟩
      refine ⟨mailbox, host, domain, ?_, parts⟩
      rw [eq_of_cutAtLast? cut, eq_of_cutAtLast? cut_again]

end Function

end Proviso
