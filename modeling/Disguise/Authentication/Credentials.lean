import Disguise.Authentication.Aes
import Disguise.Authentication.Configuration
import Disguise.Authentication.UeRuns

/-!
# Credentials of the UE

What `usim::init` makes of its arguments. Well-formed texts are read without loss
(`init_reads_credentials`), a text of the wrong length is reported and leaves its member as it is
(`init_keeps_malformed`), and a UE that is configured with well-formed texts authenticates with the
key and the OPc they spell (`configured_accepts_iff`).
-/

set_option autoImplicit false
set_option relaxedAutoImplicit false

namespace Disguise.Authentication.Ue

open Memory Milenage

/-! ### Well-formed arguments -/

/-- A text of 32 hexadecimal digits. -/
structure BlockText (text : Text) : Prop where
  length : text.length = 32
  digits : ∀ h ∈ text, IsHexDigit h

/-- A text of 15 decimal digits. -/
structure IdentityText (text : Text) : Prop where
  length : text.length = 15
  digits : ∀ digit ∈ text, IsDecimalDigit digit

/-- The arguments that `init` uses are what the members can be read from. -/
structure WellFormed (args : UsimArgs) : Prop where
  k : BlockText args.k
  op : args.authAlgo = .milenage → args.usingOp = true → BlockText args.op
  opc : args.authAlgo = .milenage → args.usingOp = false → BlockText args.opc
  imsi : IdentityText args.imsi
  imei : IdentityText args.imei

/-- A text spells a block, in letters of any case. -/
def Spells (text : Text) (block : Block) : Prop := text.map lowerCase = hexText block.toList

instance (text : Text) (block : Block) : Decidable (Spells text block) :=
  inferInstanceAs (Decidable (_ = _))

/-- A well-formed text is read as the block it spells. -/
theorem BlockText.read {text : Text} (htext : BlockText text) (name : String) (old : Block) :
    ∃ block, readBlock name text old = (block, []) ∧
      ∀ other : Block, block = other ↔ Spells text other := by
  refine ⟨⟨strToHex text, by rw [length_strToHex, htext.length]⟩, dif_pos htext.length,
    fun other ↦ ?_⟩
  have heven : text.length % 2 = 0 := by rw [htext.length]
  rw [Spells, ← strToHex_eq_iff htext.digits heven]
  exact Subtype.ext_iff

/-- A well-formed text is read as the number it is the decimal text of. -/
theorem IdentityText.read {text : Text} (htext : IdentityText text) (name : String)
    (old : UInt64) :
    readIdentity name text old = (readDigits text, []) ∧
      ∀ number < 10 ^ 15, (readDigits text).toNat = number ↔ text = decimalText 15 number :=
  ⟨if_pos htext.length, fun _ hnumber ↦ readDigits_eq_iff htext.digits htext.length hnumber⟩

/-- So are OP and OPc. -/
theorem WellFormed.readOperator {args : UsimArgs} (hformed : WellFormed args)
    (computeOpc : Block → Block → Block) (k : Block) (before : Identity) :
    ∃ op opc, Ue.readOperator computeOpc args k before = ((op, opc), []) ∧
      (args.authAlgo = .milenage → args.usingOp = true →
        opc = computeOpc k op ∧ ∀ other, op = other ↔ Spells args.op other) ∧
      (args.authAlgo = .milenage → args.usingOp = false →
        ∀ other, opc = other ↔ Spells args.opc other) := by
  by_cases halgo : args.authAlgo = .milenage
  · rw [Ue.readOperator, if_pos halgo]
    cases husing : args.usingOp with
    | true =>
      have htext := hformed.op halgo husing
      obtain ⟨op, hop, hspells⟩ := htext.read "OP" before.op
      refine ⟨op, computeOpc k op, ?_, fun _ _ ↦ ⟨rfl, hspells⟩,
        fun _ hnot ↦ Bool.noConfusion hnot⟩
      rw [if_pos rfl, hop]
      dsimp only
      rw [if_pos htext.length]
    | false =>
      obtain ⟨opc, hopc, hspells⟩ := (hformed.opc halgo husing).read "OPc" before.opc
      refine ⟨before.op, opc, ?_, fun _ hyes ↦ Bool.noConfusion hyes, fun _ _ ↦ hspells⟩
      rw [if_neg Bool.false_ne_true, hopc]
  · refine ⟨before.op, before.opc, if_neg halgo, fun hyes ↦ absurd hyes halgo,
      fun hyes ↦ absurd hyes halgo⟩

/-- `init` reads well-formed arguments without an error and without loss, whatever the members were
before: the key, and OP or OPc, are the blocks whose hexadecimal texts the arguments are, up to the
case of the letters, OPc is computed from the new key where OP is given, and the identities are the
numbers whose 15 decimal digits the arguments are. -/
theorem init_reads_credentials {args : UsimArgs} (hformed : WellFormed args)
    (computeOpc : Block → Block → Block) (mapping : SharedPointer) (before : Identity) :
    ∃ after, init computeOpc mapping args before = (srsranSuccess, after, []) ∧
      (∀ k, after.k = k ↔ Spells args.k k) ∧
      (args.authAlgo = .milenage → args.usingOp = true →
        after.opc = computeOpc after.k after.op ∧ ∀ op, after.op = op ↔ Spells args.op op) ∧
      (args.authAlgo = .milenage → args.usingOp = false →
        ∀ opc, after.opc = opc ↔ Spells args.opc opc) ∧
      (∀ imsi < 10 ^ 15, after.imsi.toNat = imsi ↔ args.imsi = decimalText 15 imsi) ∧
      ∀ imei < 10 ^ 15, after.imei.toNat = imei ↔ args.imei = decimalText 15 imei := by
  obtain ⟨k, hk, hkSpells⟩ := hformed.k.read "K" before.k
  obtain ⟨himsi, himsiText⟩ := hformed.imsi.read "IMSI" before.imsi
  obtain ⟨himei, himeiText⟩ := hformed.imei.read "IMEI" before.imei
  have hoperator := hformed.readOperator computeOpc k before
  obtain ⟨op, opc, hread, hop, hopc⟩ := hoperator
  refine ⟨⟨args.imsi, args.imei, mapping, args.authAlgo, k, op, opc, readDigits args.imsi,
    readDigits args.imei, true⟩, ?_, hkSpells, hop, hopc, himsiText, himeiText⟩
  rw [init, hk]
  dsimp only
  rw [hread, himsi, himei]
  rfl

/-- The members of an object before `init`. -/
def blankIdentity : Identity where
  imsiStr := []
  imeiStr := []
  sharedData := .null
  authAlgo := .milenage
  k := zeroBlock
  op := zeroBlock
  opc := zeroBlock
  imsi := 0
  imei := 0
  initiated := false

/-- Arguments with an OP whose letters are of both cases. -/
def sampleArgs : UsimArgs where
  algo := ['m', 'i', 'l'].map Char.toUInt8
  usingOp := true
  op := (List.replicate 16 ['a', 'A']).flatten.map Char.toUInt8
  opc := []
  imsi := ['0', '0', '1', '0', '1', '0', '1', '2', '3', '4', '5', '6', '7', '8', '0'].map
    Char.toUInt8
  imei := List.replicate 15 '9'.toUInt8
  k := List.replicate 32 '0'.toUInt8

theorem wellFormed_sampleArgs : WellFormed sampleArgs where
  k := ⟨by decide, by decide +kernel⟩
  op _ _ := ⟨by decide, by decide +kernel⟩
  opc _ hnot := Bool.noConfusion hnot
  imsi := ⟨by decide, by decide +kernel⟩
  imei := ⟨by decide, by decide +kernel⟩

theorem init_reads_credentials_sample :
    ∃ after, init (fun _ op ↦ op) .mapped sampleArgs blankIdentity = (srsranSuccess, after, []) ∧
      after.k = zeroBlock ∧ after.op = List.Vector.replicate 16 0xAA ∧ after.opc = after.op ∧
      after.imsi.toNat = 1010123456780 ∧ after.imei.toNat = 999999999999999 := by
  obtain ⟨after, hinit, hk, hop, -, himsi, himei⟩ :=
    init_reads_credentials wellFormed_sampleArgs (fun _ op ↦ op) .mapped blankIdentity
  obtain ⟨hopc, hop⟩ := hop (by decide) rfl
  exact ⟨after, hinit, (hk zeroBlock).mpr (by decide +kernel), (hop _).mpr (by decide +kernel),
    hopc, (himsi _ (by decide)).mpr (by decide), (himei _ (by decide)).mpr (by decide)⟩

/-! ### Malformed arguments -/

/-- The error for a text, if its length is not the expected one. -/
def lengthErrors (name : String) (text : Text) (expected : ℕ) : List LengthError :=
  if text.length = expected then [] else [⟨name, text.length, expected⟩]

theorem readBlock_errors (name : String) (text : Text) (old : Block) :
    (readBlock name text old).2 = lengthErrors name text 32 := by
  rw [readBlock, lengthErrors]
  split_ifs <;> rfl

theorem readIdentity_errors (name : String) (text : Text) (old : UInt64) :
    (readIdentity name text old).2 = lengthErrors name text 15 := by
  rw [readIdentity, lengthErrors]
  split_ifs <;> rfl

theorem length_hexText (bytes : List UInt8) : (hexText bytes).length = 2 * bytes.length := by
  induction bytes with
  | nil => rfl
  | cons byte rest ih =>
    have hpair : (hexText (byte :: rest)).length = (hexText rest).length + 2 := rfl
    rw [hpair, ih, List.length_cons]
    omega

/-- A text of the wrong length is read as if it spelled the block that is there. -/
theorem readBlock_malformed (name : String) {text : Text} (hlength : text.length ≠ 32)
    (old : Block) :
    (readBlock name text old).1 = (readBlock name (hexText old.toList) old).1 := by
  have hwritten : (hexText old.toList).length = 32 := by
    rw [length_hexText, old.toList_length]
  rw [readBlock, readBlock, dif_neg hlength, dif_pos hwritten]
  exact Subtype.ext (strToHex_hexText old.toList).symm

/-- The texts `init` uses, with their names and the lengths they should have. -/
def checkedTexts (args : UsimArgs) : List (String × Text × ℕ) :=
  [("K", args.k, 32)] ++
    (if args.authAlgo = .milenage then
      if args.usingOp then [("OP", args.op, 32)] else [("OPc", args.opc, 32)]
    else []) ++
    [("IMSI", args.imsi, 15), ("IMEI", args.imei, 15)]

theorem readOperator_errors (computeOpc : Block → Block → Block) (args : UsimArgs) (k : Block)
    (identity : Identity) :
    (readOperator computeOpc args k identity).2 =
      if args.authAlgo = .milenage then
        if args.usingOp then lengthErrors "OP" args.op 32 else lengthErrors "OPc" args.opc 32
      else [] := by
  rw [readOperator]
  by_cases halgo : args.authAlgo = .milenage
  · rw [if_pos halgo, if_pos halgo]
    cases args.usingOp with
    | true => exact readBlock_errors _ _ _
    | false => exact readBlock_errors _ _ _
  · rw [if_neg halgo, if_neg halgo]

/-- The members in terms of what is read. -/
theorem init_members (computeOpc : Block → Block → Block) (mapping : SharedPointer)
    (args : UsimArgs) (before : Identity) :
    (init computeOpc mapping args before).2.1 =
      let k := (readBlock "K" args.k before.k).1
      let operator := (readOperator computeOpc args k before).1
      { imsiStr := args.imsi, imeiStr := args.imei, sharedData := mapping,
        authAlgo := args.authAlgo, k, op := operator.1, opc := operator.2,
        imsi := (readIdentity "IMSI" args.imsi before.imsi).1,
        imei := (readIdentity "IMEI" args.imei before.imei).1, initiated := true } := rfl

/-- Without an OP, OPc is read from its own text. -/
theorem readOperator_stored (computeOpc : Block → Block → Block) (args : UsimArgs) (k : Block)
    (before : Identity) (halgo : args.authAlgo = .milenage) (husing : args.usingOp = false) :
    (readOperator computeOpc args k before).1 =
      (before.op, (readBlock "OPc" args.opc before.opc).1) := by
  rw [readOperator, if_pos halgo, husing, if_neg Bool.false_ne_true]

/-- `init` succeeds whatever the texts are, and prints one error for each text it uses whose length
is wrong, in the order of the checks. A key of the wrong length leaves the UE with the key it had,
also for the OPc that is computed from it, and so does an OPc; with an OP of the wrong length OPc is
not computed at all, even for a new key. -/
theorem init_keeps_malformed (computeOpc : Block → Block → Block) (mapping : SharedPointer)
    (args : UsimArgs) (before : Identity) :
    let outcome := init computeOpc mapping args before
    outcome.1 = srsranSuccess ∧
      outcome.2.2 = ((checkedTexts args).flatMap fun (name, text, expected) ↦
        lengthErrors name text expected) ∧
      (args.k.length ≠ 32 → outcome.2.1 =
        (init computeOpc mapping { args with k := hexText before.k.toList } before).2.1) ∧
      (args.authAlgo = .milenage → args.usingOp = false → args.opc.length ≠ 32 → outcome.2.1 =
        (init computeOpc mapping { args with opc := hexText before.opc.toList } before).2.1) ∧
      (args.authAlgo = .milenage → args.usingOp = true → args.op.length ≠ 32 →
        outcome.2.1.op = before.op ∧ outcome.2.1.opc = before.opc) ∧
      (args.imsi.length ≠ 15 → outcome.2.1.imsi = before.imsi) ∧
      (args.imei.length ≠ 15 → outcome.2.1.imei = before.imei) := by
  intro outcome
  refine ⟨rfl, ?_, fun hk ↦ ?_, fun halgo husing hopc ↦ ?_, fun halgo husing hop ↦ ?_,
    fun himsi ↦ ?_, fun himei ↦ ?_⟩
  · show (readBlock "K" args.k before.k).2 ++ (readOperator computeOpc args _ before).2 ++
      (readIdentity "IMSI" args.imsi before.imsi).2 ++
      (readIdentity "IMEI" args.imei before.imei).2 = _
    rw [readBlock_errors, readOperator_errors, readIdentity_errors, readIdentity_errors,
      checkedTexts]
    split_ifs
    all_goals simp only [List.flatMap_cons, List.flatMap_nil, List.append_assoc, List.cons_append,
      List.nil_append, List.append_nil]
  · show (init computeOpc mapping args before).2.1 = _
    rw [init_members, init_members, readBlock_malformed "K" hk before.k]
    rfl
  · show (init computeOpc mapping args before).2.1 = _
    have hsame : (readOperator computeOpc args (readBlock "K" args.k before.k).1 before).1 =
        (readOperator computeOpc { args with opc := hexText before.opc.toList }
          (readBlock "K" args.k before.k).1 before).1 := by
      rw [readOperator_stored computeOpc args _ before halgo husing,
        readBlock_malformed "OPc" hopc before.opc]
      exact (readOperator_stored computeOpc { args with opc := hexText before.opc.toList } _ before
        halgo husing).symm
    rw [init_members, init_members]
    dsimp only
    rw [hsame]
    rfl
  · have hkept : (readOperator computeOpc args (readBlock "K" args.k before.k).1 before).1 =
        (before.op, before.opc) := by
      rw [readOperator, if_pos halgo, husing, if_pos rfl, readBlock, dif_neg hop]
      dsimp only
      rw [if_neg hop]
    exact ⟨congrArg Prod.fst hkept, congrArg Prod.snd hkept⟩
  · exact congrArg Prod.fst (if_neg himsi)
  · exact congrArg Prod.fst (if_neg himei)

/-! ### What a configured UE authenticates -/

/-- The members authentication uses, in an object whose other members are given. -/
def Identity.configure (identity : Identity) (usim : Usim) : Usim :=
  { usim with
    authAlgo := identity.authAlgo
    k := identity.k
    opc := identity.opc
    imsiStr := String.ofList (identity.imsiStr.map Char.ofUInt8)
    sharedData := identity.sharedData }

/-- The OPc that well-formed arguments stand for, with a key. -/
def SpellsOpc (computeOpc : Block → Block → Block) (args : UsimArgs) (k opc : Block) : Prop :=
  if args.usingOp then ∃ op, Spells args.op op ∧ opc = computeOpc k op else Spells args.opc opc

/-- A UE that is configured with the texts of a key and an OP or OPc, in letters of any case,
accepts exactly the tokens that verify under this key and this OPc.

Assumes: the arguments are well formed, the algorithm is Milenage, and the Milenage functions of
srsRAN compute those of the standard. -/
theorem configured_accepts_iff {srsran : Srsran} {aes : Block → Block → Block}
    (hmilenage : ComputesMilenage srsran aes) {args : UsimArgs} (hformed : WellFormed args)
    (halgo : args.authAlgo = .milenage) {computeOpc : Block → Block → Block} {k opc : Block}
    (hk : Spells args.k k) (hopc : SpellsOpc computeOpc args k opc) (mapping : SharedPointer)
    (before : Identity) (usim : Usim) (rand autnEnb : Block) (mcc mnc : UInt16)
    (kAsme : Octets 32) :
    let configured := (init computeOpc mapping args before).2.1.configure usim
    (generateAuthenticationResponse srsran configured rand autnEnb mcc mnc kAsme).1.1 = .authOk ↔
      Verifies (aes k) opc rand autnEnb := by
  intro configured
  obtain ⟨read, hread, hreadSpells⟩ := hformed.k.read "K" before.k
  obtain rfl : read = k := (hreadSpells k).mpr hk
  obtain ⟨op, readOpc, hoperator, hcomputed, hstored⟩ :=
    hformed.readOperator computeOpc read before
  have hreadOpc : readOpc = opc := by
    rw [SpellsOpc] at hopc
    split_ifs at hopc with husing
    · obtain ⟨other, hspells, rfl⟩ := hopc
      obtain ⟨hvalue, hop⟩ := hcomputed halgo husing
      rw [hvalue, (hop other).mpr hspells]
    · exact (hstored halgo (Bool.eq_false_of_not_eq_true husing) opc).mpr hopc
  have hk : configured.k = read := by
    show (readBlock "K" args.k before.k).1 = read
    rw [hread]
  have hopc : configured.opc = opc := by
    show (readOperator computeOpc args (readBlock "K" args.k before.k).1 before).1.2 = opc
    rw [hread, hoperator, hreadOpc]
  have halgo : configured.authAlgo = .milenage := halgo
  have haccepts := generateAuthenticationResponse_iff hmilenage halgo rand autnEnb mcc mnc kAsme
  rw [hk, hopc] at haccepts
  exact haccepts.1

theorem configured_accepts_iff_sample :
    let configured :=
      (init (fun _ op ↦ op) .mapped sampleArgs blankIdentity).2.1.configure (freshUsim zeroBlock)
    (generateAuthenticationResponse (enclaveSrsran Aes.encrypt) configured zeroBlock zeroBlock 1 1
        (List.Vector.replicate 32 0)).1.1 = .authOk ↔
      Verifies (Aes.encrypt zeroBlock) (List.Vector.replicate 16 0xAA) zeroBlock zeroBlock :=
  configured_accepts_iff (enclaveSrsran_computes Aes.encrypt) wellFormed_sampleArgs (by decide)
    (by decide +kernel) ⟨List.Vector.replicate 16 0xAA, by decide +kernel, rfl⟩ .mapped
    blankIdentity (freshUsim zeroBlock) zeroBlock zeroBlock 1 1 (List.Vector.replicate 32 0)

end Disguise.Authentication.Ue
