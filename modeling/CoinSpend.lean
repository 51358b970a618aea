import CoinSpend.Bytes.Lemmas
import CoinSpend.Config.Environment
import CoinSpend.Document.Config
import CoinSpend.Document.Draft
import CoinSpend.Document.Inscription
import CoinSpend.Draft.Forecast
import CoinSpend.Draft.Sign
import CoinSpend.Proofs.Address.Hash
import CoinSpend.Proofs.Balance
import CoinSpend.Proofs.Config.Environment
import CoinSpend.Proofs.Document
import CoinSpend.Proofs.Draft.Forecast
import CoinSpend.Proofs.Draft.Gather
import CoinSpend.Proofs.Draft.SigopCost
import CoinSpend.Proofs.Inscription.Change
import CoinSpend.Proofs.Inscription.Commitment
import CoinSpend.Proofs.Inscription.Conservation
import CoinSpend.Proofs.Inscription.ElementSize
import CoinSpend.Proofs.Inscription.Estimate
import CoinSpend.Proofs.Inscription.RevealSize
import CoinSpend.Proofs.Inscription.Standardness
import CoinSpend.Proofs.Key.Text
import CoinSpend.Proofs.Signing.Overwrite
import CoinSpend.Proofs.Signing.Unlock
import CoinSpend.Proofs.Signing.Verify
import CoinSpend.Proofs.Transaction.Canonical
import CoinSpend.Proofs.Transaction.EncodedSize
import CoinSpend.Proofs.Script.Grammar
import CoinSpend.Proofs.Inscription.Counters
