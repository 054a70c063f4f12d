/- # Proviso.Proofs.Function.Phone -- numbers in international form

A number in international form belongs to the region whose calling code it starts with.  The region
that a call asks for is looked at first, but that makes no difference: no calling code is the start
of another one, and regions that share one share their numbering plan, too (`callingCodes_apart`).
So the number is checked as one of its own region would be, whichever known region is asked for, and
is refused if it starts with no known calling code (`phone_international`). -/
import Proviso.Function.Contact
import Proviso.Pattern.OfText
import Proviso.Proofs.Function.Reply

namespace Proviso

set_option autoImplicit false

/-! ## Calling codes -/

namespace Region

/-- No calling code is the start of another one, and where two are the same, so is the numbering
plan. -/
theorem callingCodes_apart : ∀ one ∈ known, ∀ other ∈ known,
    one.callingCode.toList <+: other.callingCode.toList →
      one.callingCode = other.callingCode ∧ one.national = other.national := by
  decide +kernel

theorem callingCode_digits :
    ∀ region ∈ known, region.callingCode.toList.all Char.isDigit = true := by
  decide +kernel

theorem find?_name : ∀ region ∈ known, known.find? (·.name == region.name) = some region := by
  decide +kernel

/-- The region is known by the name, in any letter case. -/
def CalledBy (region : Region) (name : String) : Prop :=
  region ∈ known ∧ name.toList.map Char.toUpper = region.name.toList

theorem CalledBy.named? {region : Region} {name : String} (called : region.CalledBy name) :
    Region.named? name = some region := by
  obtain ⟨is_known, same⟩ := called
  unfold Region.named?
  rw [same, String.ofList_toList]
  exact find?_name region is_known

theorem dials_iff {region : Region} {number : List Char} :
    region.dials number = true ↔ region.callingCode.toList <+: number :=
  List.isPrefixOf_iff_prefix

variable {requested region : Region} {number : List Char}

/-- Only a known region is dialled, and by its calling code. -/
theorem dialled_of_dialled? (is_known : requested ∈ known)
    (found : dialled? requested number = some region) :
    region ∈ known ∧ region.callingCode.toList <+: number := by
  unfold dialled? at found
  have dials := List.find?_some found
  refine ⟨?_, dials_iff.mp dials⟩
  rcases List.mem_cons.mp (List.mem_of_find?_eq_some found) with rfl | listed
  · exact is_known
  · exact listed

/-- A number that starts with no known calling code belongs to no region. -/
theorem dialled?_eq_none (is_known : requested ∈ known)
    (foreign : ∀ region ∈ known, ¬region.callingCode.toList <+: number) :
    dialled? requested number = none := by
  refine Option.eq_none_iff_forall_ne_some.mpr fun region found => ?_
  obtain ⟨region_known, starts⟩ := dialled_of_dialled? is_known found
  exact foreign region region_known starts

/-- A number behind a calling code belongs to a region with that code and its numbering plan. -/
theorem exists_dialled (is_known : requested ∈ known) (region_known : region ∈ known)
    (number : List Char) :
    ∃ dialled, dialled? requested (region.callingCode.toList ++ number) = some dialled ∧
      dialled.callingCode = region.callingCode ∧ dialled.national = region.national := by
  have own : region.callingCode.toList <+: region.callingCode.toList ++ number :=
    List.prefix_append _ _
  cases found : dialled? requested (region.callingCode.toList ++ number) with
  | none =>
    unfold dialled? at found
    have silent := List.find?_eq_none.mp found region (List.mem_cons_of_mem _ region_known)
    exact absurd (dials_iff.mpr own) silent
  | some dialled =>
    obtain ⟨dialled_known, starts⟩ := dialled_of_dialled? is_known found
    -- two starts of one number: the shorter one is a start of the longer one
    rcases List.prefix_or_prefix_of_prefix starts own with shorter | longer
    · exact ⟨dialled, rfl, callingCodes_apart _ dialled_known _ region_known shorter⟩
    · obtain ⟨same_code, same_plan⟩ := callingCodes_apart _ region_known _ dialled_known longer
      exact ⟨dialled, rfl, same_code.symm, same_plan.symm⟩

end Region

/-! ## Checking a number -/

/-- The text without the characters that do not count in a phone number. -/
def dialledText (text : String) : List Char := text.toList.filter (!isPhoneFiller ·)

theorem digit_counts {c : Char} (digit : c.isDigit = true) : isPhoneFiller c = false := by
  refine Bool.eq_false_iff.mpr fun filler => ?_
  simp only [isPhoneFiller, Bool.or_eq_true, beq_iff_eq] at filler
  rcases filler with (((rfl | rfl) | rfl) | rfl) | rfl <;> cases digit

section Checks

variable {requested region : Region} {text : String} {number : List Char}

theorem checkPhone_international (written : dialledText text = '+' :: number)
    (digits : isDigits number = true) :
    checkPhone requested text.toList =
      match Region.dialled? requested number with
      | some region => checkNational region (number.drop region.callingCode.length)
      | none => .error .badRegion := by
  unfold checkPhone
  unfold dialledText at written
  rw [written]
  exact if_pos digits

/-- Digits alone are checked against the numbering plan of the region that is asked for. -/
theorem checkPhone_national (digits : isDigits text.toList = true) :
    checkPhone requested text.toList = checkNational requested text.toList := by
  obtain ⟨_, all_digits⟩ := (Bool.and_eq_true _ _).mp digits
  have each := List.all_eq_true.mp all_digits
  have kept : text.toList.filter (!isPhoneFiller ·) = text.toList :=
    List.filter_eq_self.mpr fun c listed => by rw [digit_counts (each c listed)]; rfl
  unfold checkPhone
  rw [kept]
  split
  · rename_i number starts
    have plus : Char.isDigit '+' = true := each '+' (starts ▸ List.mem_cons_self)
    cases plus
  · exact if_pos digits

/-- Behind the calling code of a region, digits are checked as those of the region itself. -/
theorem checkPhone_behind_code (requested_known : requested ∈ Region.known)
    (is_known : region ∈ Region.known) (digits : isDigits number = true)
    (written : dialledText text = '+' :: (region.callingCode.toList ++ number)) :
    checkPhone requested text.toList = checkNational region number := by
  have all_digits : isDigits (region.callingCode.toList ++ number) = true := by
    obtain ⟨some_digit, number_digits⟩ := (Bool.and_eq_true _ _).mp digits
    rw [isDigits, List.all_append, number_digits, Region.callingCode_digits region is_known]
    cases number with
    | nil => cases some_digit
    | cons => simp
  obtain ⟨dialled, found, same_code, same_plan⟩ :=
    Region.exists_dialled requested_known is_known number
  rw [checkPhone_international written all_digits, found]
  show checkNational dialled (List.drop dialled.callingCode.length _) = _
  rw [same_code, ← String.length_toList, List.drop_left]
  unfold checkNational
  rw [same_plan]

end Checks

/-! ## Calls -/

namespace Function

/-- What may stand behind a number in a call: nothing, or the name of a known region. -/
inductive AsksForKnown : List Datum → Prop where
  | unasked : AsksForKnown []
  | named {region : Region} {name : String} (called : region.CalledBy name) :
      AsksForKnown [.str name]

theorem AsksForKnown.exists_region {asked : List Datum} (asks : AsksForKnown asked)
    (text : String) :
    ∃ region ∈ Region.known, requestedRegion? (.str text :: asked) = some region := by
  cases asks with
  | unasked =>
    refine ⟨_, List.mem_cons_self, ?_⟩
    show Region.named? "CN" = _
    decide +kernel
  | @named region name called => exact ⟨region, called.1, called.named?⟩

section

variable [PatternLibrary]

/-- The reply to a call is what the check for the region asked for says. -/
theorem phone_reply {text : String} {asked : List Datum} {region : Region}
    (requests : requestedRegion? (.str text :: asked) = some region) :
    phone.reply (.str text :: asked) = .judged (match checkPhone region text.toList with
      | .ok () => .pass
      | .error fault => .fail fault.message) := by
  have replied : phone.reply (.str text :: asked) = .judged (isPhone (.str text :: asked)) := rfl
  have checked : checkPhoneArgs (.str text :: asked) = checkPhone region text.toList := by
    unfold checkPhoneArgs
    rw [requests]
  rw [replied, isPhone.eq_def, checked]
  cases checkPhone region text.toList <;> rfl

/-- **A number in international form is judged by its own region.**  Behind a calling code, digits
are judged as if they stood alone and the region of that code was asked for, whichever known region
is asked for instead, or none, and however the number is set off.  Digits that start with no known
calling code are refused for it. -/
theorem phone_international :
    (∀ (region : Region) (name text number : String) (asked : List Datum),
      region.CalledBy name → isDigits number.toList = true →
      dialledText text = '+' :: (region.callingCode.toList ++ number.toList) →
      AsksForKnown asked →
        phone.reply (.str text :: asked) = phone.reply [.str number, .str name]) ∧
    ∀ (text : String) (number : List Char) (asked : List Datum),
      dialledText text = '+' :: number → isDigits number = true →
      (∀ region ∈ Region.known, ¬region.callingCode.toList <+: number) →
      AsksForKnown asked →
        phone.reply (.str text :: asked) = .judged (.fail "invalid country code") := by
  constructor
  · intro region name text number asked called digits written asks
    obtain ⟨requested, requested_known, requests⟩ := asks.exists_region text
    have own : requestedRegion? [.str number, .str name] = some region := called.named?
    rw [phone_reply requests, phone_reply own,
      checkPhone_behind_code requested_known called.1 digits written, checkPhone_national digits]
  · intro text number asked written digits foreign asks
    obtain ⟨requested, requested_known, requests⟩ := asks.exists_region text
    rw [phone_reply requests, checkPhone_international written digits,
      Region.dialled?_eq_none requested_known foreign]
    rfl

end

attribute [local instance] Pattern.library

/-- A number under the code that two regions share, where a third one is asked for, and one under a
code that no region has. -/
theorem phone_international_shared :
    phone.reply [.str "+1 (415) 555-2671", .str "gb"] =
        phone.reply [.str "4155552671", .str "Ca"] ∧
      phone.reply [.str "4155552671", .str "Ca"] = .judged .pass ∧
      phone.reply [.str "+999-123"] = .judged (.fail "invalid country code") := by
  have canada : Region.CalledBy ⟨"CA", "1", Region.northAmerica⟩ "Ca" := by
    constructor <;> decide +kernel
  have britain : ∃ region, Region.CalledBy region "gb" :=
    ⟨⟨"GB", "44", _⟩, List.mem_of_getElem? (i := 3) rfl, by decide⟩
  obtain ⟨asked, called⟩ := britain
  refine ⟨?_, congrArg Reply.judged (by decide +kernel), ?_⟩
  · exact phone_international.1 _ _ _ _ _ canada (by decide) (by decide) (.named called)
  · exact phone_international.2 _ "999123".toList _ (by decide) (by decide) (by decide +kernel)
      .unasked

end Function

end Proviso
