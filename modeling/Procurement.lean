import Procurement.Handle.Plan
import Procurement.Main
import Procurement.Market.Description
import Procurement.Market.Plan
import Procurement.Market.Session
import Procurement.Settings.Form
import Procurement.Settings.Writer
import Procurement.Proofs.Decisions
import Procurement.Proofs.Lookups
import Procurement.Proofs.Versions
import Procurement.Proofs.Contents
import Procurement.Proofs.Restart
import Procurement.Proofs.Approvals
import Procurement.Proofs.Authority
import Procurement.Proofs.Outcomes
import Procurement.Proofs.Course
import Procurement.Proofs.Visibility
import Procurement.Proofs.Integrity
import Procurement.Proofs.Permanence
import Procurement.Proofs.Verdicts
import Procurement.Proofs.Revisions
import Procurement.Proofs.Listings
import Procurement.Proofs.Reviews
import Procurement.Proofs.Paging
import Procurement.Proofs.Objections
import Procurement.Proofs.Drafts
import Procurement.Proofs.InstantOrder
import Procurement.Proofs.Creation
import Procurement.Proofs.Interchange
import Procurement.Proofs.Independence
import Procurement.Proofs.Omissions
import Procurement.Proofs.JsonText
import Procurement.Proofs.JsonForms
import Procurement.Proofs.CacheSharing
import Procurement.Proofs.SettingsPrecedence
import Procurement.Proofs.SettingsText
