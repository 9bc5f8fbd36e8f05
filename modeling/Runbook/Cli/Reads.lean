import Runbook.Cli.Program

/-!
This module contains the files that the program reads: they are named by its options and by the
playbook.
-/

namespace Runbook

structure Reads where
  files : List Path := []
  folders : List Path := []
deriving Repr, DecidableEq

def Reads.append (r s : Reads) : Reads :=
  { files := r.files ++ s.files, folders := r.folders ++ s.folders }

/--
A wallet's keyfile, or the folder in which it is searched for. A key in the playbook needs neither.
-/
def Reads.ofWallet (base : Path) (d : WalletDecl) : Reads :=
  match setting d.privkey, setting d.keyfile, setting d.keystore with
  | some _, _, _ => {}
  | none, some keyfile, keystore => { files := [(Wallet.keyfilePlace keystore keyfile).path base] }
  | none, none, some keystore => { folders := [base.join ⟨keystore⟩] }
  | none, none, none => {}

def Reads.ofContract (base : Path) (d : ContractDecl) : Reads :=
  { files := (d.artifact.map fun artifact => base.join ⟨artifact⟩).toList }

def Reads.ofDocument (base : Path) (d : Document) : Reads :=
  let wallets := (d.wallets.getD []).map fun (_, w) => ofWallet base w
  let contracts := (d.contracts.getD []).map fun (_, c) => ofContract base c
  (wallets ++ contracts).foldl Reads.append {}

end Runbook
