import OefCore.Karma.IKarmaPolicy
import OefCore.Tasks.OefUri

/-
  Public keys and their texts, on which the white list rests.

  What OpenSSL does is a parameter; it gives the same answers
  for the same key.

  Main declarations:
    * `OpenSsl`, `OpenSsl.PrintsApart`
    * `EvpPublicKey.toString`, `rsaModulusShort`
    * `loadSslPubKeys`, `loadedKeys`
    * `mem_loadSslPubKeys_iff`
-/

namespace OefCore

------------------------------------------------------------
-- Keys
------------------------------------------------------------

/- `EVP_PKEY_base_id`, as far as it is told apart. -/
inductive KeyType where
  | rsa
  | rsa2
  | other
  deriving DecidableEq, Repr

/- `K` are the public keys. `rsaPrint` is the text that ends
   up in the memory of `RSA_print`, or none if that fails, and
   `pemReadPubkey` what is read from the file of a name. -/
structure OpenSsl (K : Type) where
  baseId : K → KeyType
  rsaPrint : K → Option String
  pemReadPubkey : String → Option K

/- Different keys for RSA have different texts. -/
def OpenSsl.PrintsApart {K : Type} (ssl : OpenSsl K) : Prop :=
  ∀ {left right : K} {text : String},
    ssl.baseId left ≠ .other →
      ssl.baseId right ≠ .other →
        ssl.rsaPrint left = some text →
          ssl.rsaPrint right = some text →
            left = right

/- `RSAKey::to_string`: whatever fails, the text is empty. -/
def RSAKey.toString
    {K : Type}
    (ssl : OpenSsl K)
    (rsa : K) : String :=
  match ssl.rsaPrint rsa with
  | some text => text
  | none => ""

namespace EvpPublicKey

variable {K : Type}

/- Of keys of other types the text is empty. -/
def toString
    (ssl : OpenSsl K)
    (key : K) : String :=
  match ssl.baseId key with
  | .rsa => RSAKey.toString ssl key
  | .rsa2 => RSAKey.toString ssl key
  | .other => ""

/- The constructor that reads a file. -/
def ofPemFile
    (ssl : OpenSsl K)
    (path : String) : Except Exception K :=
  match ssl.pemReadPubkey path with
  | some key => .ok key
  | none => .error .standard

/- Keys with one and the same text that is not empty are the
   same. -/
theorem eq_of_toString
    {ssl : OpenSsl K}
    (hApart : ssl.PrintsApart)
    {left right : K}
    (hSome : toString ssl left ≠ "")
    (hSame : toString ssl left = toString ssl right) :
    left = right := by
  have hPrinted : ∀ {key : K},
      toString ssl key ≠ "" →
        ssl.baseId key ≠ .other ∧
          ssl.rsaPrint key = some (toString ssl key) := by
    intro key hKey
    unfold toString at hKey ⊢
    cases hType : ssl.baseId key with
    | other => simp [hType] at hKey
    | rsa | rsa2 =>
        simp only [hType, RSAKey.toString] at hKey ⊢
        cases hPrint : ssl.rsaPrint key with
        | none => simp [hPrint] at hKey
        | some text => simp
  rcases hPrinted hSome with ⟨hLeft, hLeftText⟩
  rcases hPrinted (hSame ▸ hSome) with ⟨hRight, hRightText⟩
  rw [← hSame] at hRightText
  exact hApart hLeft hRight hLeftText hRightText

end EvpPublicKey

/- `RSA_Modulus`: the text without what stands around the
   modulus. -/
def rsaModulus (rsaStr : String) : String :=
  if rsaStr.length < 35 + 28 then
    ""
  else
    String.ofList
      ((rsaStr.toList.drop 35).take
        (rsaStr.length - 35 - 28))

/- `RSA_Modulus_short`. -/
def rsaModulusShort (rsaStr : String) : String :=
  if (rsaModulus rsaStr).length < 5 + 23 then
    ""
  else
    String.ofList (((rsaModulus rsaStr).toList.drop 5).take 23)

------------------------------------------------------------
-- The White List
------------------------------------------------------------

section WhiteList

variable {K : Type}

/- One line of the file; keys that cannot be read are left
   out. -/
def loadLine
    (ssl : OpenSsl K)
    (whiteList : List String)
    (line : List Char) : List String :=
  if line = [] then
    whiteList
  else
    match EvpPublicKey.ofPemFile ssl (String.ofList line) with
    | .ok pubKey =>
        whiteList.insert (EvpPublicKey.toString ssl pubKey)
    | .error _ => whiteList

/- `MtCore::load_ssl_pub_keys`, with what the file holds; one
   that cannot be opened has no lines. -/
def loadSslPubKeys
    (ssl : OpenSsl K)
    (content : String)
    (whiteList : List String) : List String :=
  (getlines '\n' content.toList).foldl (loadLine ssl) whiteList

/- The keys that it reads. -/
def loadedKeys
    (ssl : OpenSsl K)
    (content : String) : List K :=
  ((getlines '\n' content.toList).filter (· ≠ [])).filterMap
    (fun line => ssl.pemReadPubkey (String.ofList line))

theorem mem_loadLine_iff
    (ssl : OpenSsl K)
    (whiteList : List String)
    (line : List Char)
    (text : String) :
    text ∈ loadLine ssl whiteList line ↔
      text ∈ whiteList ∨
        line ≠ [] ∧
          ∃ key,
            ssl.pemReadPubkey (String.ofList line) = some key ∧
              EvpPublicKey.toString ssl key = text := by
  unfold loadLine EvpPublicKey.ofPemFile
  by_cases hEmpty : line = []
  · simp [hEmpty]
  · cases hRead : ssl.pemReadPubkey (String.ofList line) with
    | none => simp [hEmpty]
    | some key => simp [hEmpty, List.mem_insert_iff, eq_comm,
        or_comm]

/- The list holds the texts of the keys that were loaded. -/
theorem mem_loadSslPubKeys_iff
    (ssl : OpenSsl K)
    (content text : String) :
    text ∈ loadSslPubKeys ssl content [] ↔
      ∃ key ∈ loadedKeys ssl content,
        EvpPublicKey.toString ssl key = text := by
  have hFold : ∀ (lines : List (List Char)) (whiteList),
      text ∈ lines.foldl (loadLine ssl) whiteList ↔
        text ∈ whiteList ∨
          ∃ key ∈ (lines.filter (· ≠ [])).filterMap
              (fun line =>
                ssl.pemReadPubkey (String.ofList line)),
            EvpPublicKey.toString ssl key = text := by
    intro lines
    induction lines with
    | nil => simp
    | cons line lines ih =>
        intro whiteList
        rw [List.foldl_cons, ih, mem_loadLine_iff]
        by_cases hEmpty : line = []
        · simp [hEmpty]
        · cases hRead :
              ssl.pemReadPubkey (String.ofList line) with
          | none => simp [hEmpty, hRead]
          | some key => simp [hEmpty, hRead, or_assoc]
  simpa [loadSslPubKeys, loadedKeys] using
    hFold (getlines '\n' content.toList) []

end WhiteList

end OefCore
