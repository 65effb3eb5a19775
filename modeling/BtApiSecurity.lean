import BtApiSecurity.Access.History
import BtApiSecurity.Access.Isolation
import BtApiSecurity.Access.Lockout
import BtApiSecurity.Access.Permissions
import BtApiSecurity.Access.Restrictions
import BtApiSecurity.Access.Sessions
import BtApiSecurity.Audit.Acceptance
import BtApiSecurity.Audit.Binding
import BtApiSecurity.Audit.Cleaning
import BtApiSecurity.Audit.Compliance
import BtApiSecurity.Audit.Durability
import BtApiSecurity.Audit.Newest
import BtApiSecurity.Audit.Notification
import BtApiSecurity.Audit.Reopening
import BtApiSecurity.Audit.Retention
import BtApiSecurity.Audit.Serialisation
import BtApiSecurity.Audit.Sharing
import BtApiSecurity.Compliance.Report
import BtApiSecurity.Data.Addresses
import BtApiSecurity.Data.Anonymization
import BtApiSecurity.Data.AtRest
import BtApiSecurity.Data.Consent
import BtApiSecurity.Data.Erasure
import BtApiSecurity.Encryption.Failure
import BtApiSecurity.Encryption.Rotation
import BtApiSecurity.Encryption.Shared
import BtApiSecurity.Framework.Encryption
import BtApiSecurity.Framework.Guarding
import BtApiSecurity.Framework.Integration
import BtApiSecurity.Framework.Outcomes
import BtApiSecurity.Framework.Permissions
import BtApiSecurity.Framework.Trail
import BtApiSecurity.Identities.Directory
import BtApiSecurity.Identities.Status
import BtApiSecurity.Mfa.AntiReplay
import BtApiSecurity.Mfa.BackupCodes
import BtApiSecurity.Mfa.Ceremony
import BtApiSecurity.Mfa.Challenges
import BtApiSecurity.Mfa.Enrolments
import BtApiSecurity.Mfa.Generation
import BtApiSecurity.Mfa.Origins
import BtApiSecurity.Mfa.Ownership
import BtApiSecurity.Mfa.Removal
import BtApiSecurity.Mfa.Replay
import BtApiSecurity.Mfa.Residue
import BtApiSecurity.Mfa.Truncation
import BtApiSecurity.Monitoring.Reading
import BtApiSecurity.Monitoring.Summary
import BtApiSecurity.OAuth.Atomic
import BtApiSecurity.OAuth.Cleanup
import BtApiSecurity.OAuth.CodeHistory
import BtApiSecurity.OAuth.Integrity
import BtApiSecurity.OAuth.Issue
import BtApiSecurity.OAuth.Lineage
import BtApiSecurity.OAuth.Revocation
import BtApiSecurity.OAuth.SigningKeys
import BtApiSecurity.OAuth.TokenHistory
import BtApiSecurity.Recovery.Creation
import BtApiSecurity.Threats.AccessRate
import BtApiSecurity.Threats.BruteForce
import BtApiSecurity.Threats.Resolution
import BtApiSecurity.Threats.Response
