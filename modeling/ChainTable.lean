import ChainTable.Bulk.Range
import ChainTable.Bulk.Walk
import ChainTable.Hash.Builder
import ChainTable.Hash.Djb2
import ChainTable.Keying.Named
import ChainTable.Session
import ChainTable.Table.Text
import ChainTable.Proofs.Bucket
import ChainTable.Proofs.Cursors
import ChainTable.Proofs.Effect
import ChainTable.Proofs.Preservation
import ChainTable.Proofs.Resize
import ChainTable.Proofs.MapRefinement
import ChainTable.Proofs.Traversal
import ChainTable.Proofs.Refusal
import ChainTable.Proofs.Layout
import ChainTable.Proofs.Bag
import ChainTable.Proofs.Conservation
import ChainTable.Proofs.Misuse
import ChainTable.Proofs.HashIndependence
import ChainTable.Proofs.HashClasses
import ChainTable.Proofs.Hysteresis
import ChainTable.Proofs.Enumeration
import ChainTable.Proofs.Stops
import ChainTable.Proofs.PeakLoad
import ChainTable.Proofs.SlotStorage
import ChainTable.Proofs.Replay
import ChainTable.Proofs.Ledger
import ChainTable.Proofs.Handles
import ChainTable.Proofs.Scan
import ChainTable.Proofs.Redistribution
import ChainTable.Proofs.Storage
import ChainTable.Proofs.Isolation
import ChainTable.Proofs.Current
import ChainTable.Proofs.Insertion
import ChainTable.Proofs.BulkUpdate
import ChainTable.Proofs.Djb2
import ChainTable.Proofs.Dump
