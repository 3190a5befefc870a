import BlsHsm.CLib
import BlsHsm.Keystore
import BlsHsm.Invariants
import BlsHsm.Search
import BlsHsm.Binding
import BlsHsm.Abstract
import BlsHsm.Refinement
import BlsHsm.Secrets
import BlsHsm.External
import BlsHsm.Import
import BlsHsm.Request
import BlsHsm.Framing
import BlsHsm.Response
import BlsHsm.KeyList
