import Runbook.Proofs.Engine.Supplied

/-!
This module contains what a recipient comes to that is given as an argument: the address that the
same text stands for as a declared recipient, unless it names a field of a wallet. An argument's
text behind the sigil is a wallet's name as it is.
-/

namespace Runbook

open Text

theorem WalletField.eq_of_parse_address {name : String} (h : parse name = .ok .address)
    : name = "address" := by
  unfold parse at h
  split at h <;> cases h
  rfl

theorem WalletRef.exists_of_parse {text owner : String} {field : WalletField}
    (h : WalletRef.parse text = .ok (.field owner field))
    : ∃ body, text.toList = '@' :: body ∧ owner.toList = body.takeWhile (· ≠ '.') ∧
        (body.dropWhile (· ≠ '.') = [] ∧ field = .address ∨
          ∃ c name, body.dropWhile (· ≠ '.') = c :: name ∧
            WalletField.parse (String.ofList name) = .ok field) := by
  unfold parse at h
  split at h
  . cases h
  . cases h
  . next body _ _ htext =>
    refine ⟨body, htext, ?_⟩
    dsimp only at h
    split at h
    . next c name hname =>
      obtain ⟨field', hfield, h⟩ := bind_eq_ok.mp h
      split at h
      . cases h
      . cases h
        exact ⟨String.toList_ofList, .inr ⟨c, name, hname, hfield⟩⟩
    . next hnil =>
      obtain ⟨field', hfield, h⟩ := bind_eq_ok.mp h
      cases hfield
      split at h
      . cases h
      . cases h
        exact ⟨String.toList_ofList, .inl ⟨hnil, rfl⟩⟩
  . cases h

theorem WalletRef.eq_of_parse_address {text owner : String}
    (h : WalletRef.parse text = .ok (.field owner .address))
    : '.' ∉ owner.toList ∧ (text = "@" ++ owner ∨ text = "@" ++ owner ++ ".address") := by
  obtain ⟨body, htext, howner, hfield⟩ := exists_of_parse h
  constructor
  . rw [howner]
    intro hmem
    exact absurd (List.mem_takeWhile_imp hmem) (by decide)
  . have hbody := List.takeWhile_append_dropWhile (p := (· ≠ '.')) (l := body)
    rw [← howner] at hbody
    rcases hfield with ⟨hnil, _⟩ | ⟨c, name, hname, haddress⟩
    . left
      rw [← String.toList_inj, htext, String.toList_append, ← hbody, hnil, List.append_nil]
      rfl
    . right
      have hne : body.dropWhile (· ≠ '.') ≠ [] := by
        rw [hname]
        exact List.cons_ne_nil c name
      have hdot : c = '.' := by
        have := List.head_dropWhile_not (· ≠ '.') hne
        simp only [hname, List.head_cons] at this
        simpa using this
      have hfieldName := WalletField.eq_of_parse_address haddress
      rw [← String.toList_inj, String.toList_ofList] at hfieldName
      rw [← String.toList_inj, htext, String.toList_append, String.toList_append, ← hbody, hname,
        hdot, hfieldName, ← List.cons_append]
      rfl

namespace Recipient

variable {ws : Wallets} {text : String} {r : Recipient}

/--
`Declares wallets text r` holds if `text` declares the recipient `r`.
-/
inductive Declares (wallets : Directory) (text : String) : Recipient → Prop where
  | wallet {name : String} (hname : wallets.contains name = true)
      (href : WalletRef.parse text = .ok (.field name .address))
      : Declares wallets text (.wallet name)
  | template : Declares wallets text (.template text)
  | address {a : Address} (href : isWalletRef text = false) (ha : Address.parse? text = some a)
      : Declares wallets text (.address a)

theorem declares_of_parse {wallets : Directory} (h : parse wallets text = .ok r)
    : Declares wallets text r := by
  unfold parse at h
  split at h
  . obtain ⟨ref, href, h⟩ := bind_eq_ok.mp h
    split at h
    . split at h
      . next hname =>
        cases h
        exact .wallet hname href
      . cases h
    . cases h
  . next href =>
    split at h
    . cases h
      exact .template
    . split at h
      . next ha =>
        cases h
        exact .address (by simpa using href) ha
      . cases h

theorem resolve_first_wallet {t name : String} (h : trim t = "@" ++ name)
    : (template "$0").resolve ws [t] = ws.addressOf name := by
  have htext : (trim t).toList = '@' :: name.toList := by
    rw [h, String.toList_append]
    rfl
  unfold resolve
  dsimp only
  rw [substituteArgs_first]
  dsimp only [List.getElem?_cons_zero]
  split
  . next rest hrest =>
    rw [htext] at hrest
    cases hrest
    rw [String.ofList_toList]
  . next hother => exact absurd htext (hother name.toList)

theorem resolve_first_address {t : String} {a : Address} (h : isWalletRef (trim t) = false)
    (ha : Address.parse? (trim t) = some a) : (template "$0").resolve ws [t] = .ok a := by
  unfold resolve
  dsimp only
  rw [substituteArgs_first]
  dsimp only [List.getElem?_cons_zero]
  split
  . next rest hrest =>
    unfold isWalletRef at h
    rw [hrest] at h
    cases h
  . rw [ha]
    rfl

theorem Declares.exists_resolve (h : Declares ws.directory text r)
    (hfixed : ∀ template, r ≠ .template template)
    : ∃ a, ∀ args, r.resolve ws args = .ok a := by
  cases h with
  | wallet hname _ =>
    obtain ⟨w, hw⟩ := Entries.exists_of_mem_names (Entries.mem_names_iff.mpr hname)
    exact ⟨w.address, fun args => Wallets.addressOf_eq_ok.mpr ⟨w, hw, rfl⟩⟩
  | template => exact absurd rfl (hfixed text)
  | @address a _ _ => exact ⟨a, fun args => rfl⟩

end Recipient

theorem WriteCommand.parse_of_recipientOf {wallets : Directory} {t : String} {r : Recipient}
    (h : recipientOf wallets (some t) = .ok (some r))
    : Recipient.parse wallets (trim t) = .ok r := by
  unfold recipientOf at h
  split at h
  . cases h
  . next text htext =>
    have htrim : text = trim t := by
      unfold setting at htext
      rw [Option.map_some, Option.filter_eq_some_iff] at htext
      exact (Option.some.inj htext.1).symm
    obtain ⟨r', hr, heq⟩ := map_eq_ok.mp h
    cases heq
    rw [← htrim]
    exact hr

theorem WriteCommand.recipientOf_first (wallets : Directory)
    : recipientOf wallets (some "$0") = .ok (some (.template "$0")) := by
  have hindices : Runbook.argIndices "$0" = [0] := by
    rw [argIndices_eq]
    decide
  show (Recipient.parse wallets "$0").map some = _
  unfold Recipient.parse
  rw [hindices]
  rfl

section Argument

variable {ws : Wallets} {t : String} {r : Recipient}

theorem Recipient.Declares.resolve_of_plain {a : Address} (h : Declares ws.directory (trim t) r)
    (hfixed : ∀ text, r ≠ .template text) (hplain : ∀ name, trim t ≠ "@" ++ name ++ ".address")
    (ha : ∀ args, r.resolve ws args = .ok a)
    : (Recipient.template "$0").resolve ws [t] = .ok a := by
  cases h with
  | @wallet name _ href =>
    obtain ⟨_, htext | htext⟩ := WalletRef.eq_of_parse_address href
    . rw [resolve_first_wallet htext]
      exact ha []
    . exact absurd htext (hplain name)
  | template => exact absurd rfl (hfixed (trim t))
  | address href hb =>
    rw [resolve_first_address href hb]
    exact ha []

theorem Recipient.Declares.eq_wallet {name : String} (h : Declares ws.directory (trim t) r)
    (hfixed : ∀ text, r ≠ .template text) (hname : trim t = "@" ++ name ++ ".address")
    : r = .wallet name := by
  cases h with
  | wallet _ href =>
    obtain ⟨hdot, htext | htext⟩ := WalletRef.eq_of_parse_address href
    . rw [htext, String.append_assoc, String.append_right_inj] at hname
      rw [hname, String.toList_append] at hdot
      exact absurd (List.mem_append_right _ (by decide)) hdot
    . rw [htext, String.append_left_inj, String.append_right_inj] at hname
      rw [hname]
  | template => exact absurd rfl (hfixed (trim t))
  | address href _ =>
    unfold isWalletRef at href
    rw [hname, String.toList_append, String.toList_append] at href
    cases href

/--
A text that stands for a fixed recipient where one is declared stands for the same address as the
argument that a recipient is taken from, unless it names the field `address` of a wallet. Then the
argument is taken for a wallet whose name has the field's in it.
-/
theorem Recipient.resolve_argument
    (h : WriteCommand.recipientOf ws.directory (some t) = .ok (some r))
    (hfixed : ∀ text, r ≠ .template text)
    : WriteCommand.recipientOf ws.directory (some "$0") = .ok (some (.template "$0")) ∧
      ∃ a, (∀ args, r.resolve ws args = .ok a) ∧
        ((∀ name, trim t ≠ "@" ++ name ++ ".address") →
          (template "$0").resolve ws [t] = .ok a) ∧
        ∀ name, trim t = "@" ++ name ++ ".address" →
          r = .wallet name ∧
            (template "$0").resolve ws [t] = ws.addressOf (name ++ ".address") := by
  have hdeclares := declares_of_parse (WriteCommand.parse_of_recipientOf h)
  obtain ⟨a, ha⟩ := hdeclares.exists_resolve hfixed
  refine ⟨WriteCommand.recipientOf_first ws.directory, a, ha, ?_, ?_⟩
  . intro hplain
    exact hdeclares.resolve_of_plain hfixed hplain ha
  . intro name hname
    refine ⟨hdeclares.eq_wallet hfixed hname, ?_⟩
    rw [String.append_assoc] at hname
    exact resolve_first_wallet hname

end Argument

def otherAddress : Address :=
  ⟨List.replicate 20 1, rfl⟩

def twinWallets : Wallets :=
  [("alice", { address := .zero, credential := .keyfile ⟨"alice.json"⟩ }),
    ("alice.address", { address := otherAddress, credential := .keyfile ⟨"twin.json"⟩ })]

theorem resolve_argument_twin
    : WriteCommand.recipientOf twinWallets.directory (some " @alice.address")
        = .ok (some (.wallet "alice")) ∧
      (∀ text, Recipient.wallet "alice" ≠ .template text) ∧
      (Recipient.wallet "alice").resolve twinWallets [] = .ok .zero ∧
      (Recipient.template "$0").resolve twinWallets [" @alice.address"] = .ok otherAddress ∧
      otherAddress ≠ .zero := by
  have hdeclared : WriteCommand.recipientOf twinWallets.directory (some " @alice.address")
      = .ok (some (.wallet "alice")) := rfl
  have hfixed : ∀ text, Recipient.wallet "alice" ≠ .template text := by
    intro text h
    cases h
  obtain ⟨_, _, _, _, hfield⟩ := Recipient.resolve_argument hdeclared hfixed
  refine ⟨hdeclared, hfixed, rfl, ?_, by decide⟩
  exact (hfield "alice" (by decide)).2

end Runbook
